import Mathlib.Data.List.Basic
import RowPipeline.Proofs.SortMeaning

/-!
What plans mean. A plan of projections that only look at rows, run row by row through its stages,
emits what the list functions of its projections make of the whole list of rows, one after the other.
-/

namespace RowPipeline

open Turn ExecutionError

variable {σ β δ : Type} {services : Services σ} {settings : Settings} {next : Receiver σ δ}
variable {excused : ExecutionError → Prop} {good : δ → Prop} {below : δ}

/-! ### Single stages -/

namespace StageBody

theorem within_good {wrap : β → StageBody} {part : β} {own : StageBody}
    {turn : Turn σ (β × δ) Unit} {job : Job σ}
    (runs : Runs turn excused (fun _ last => good last.1.2) ((part, below), job)) :
    Runs (within wrap part turn) excused (fun _ last => good last.1.2) ((own, below), job) := by
  refine (runs.within wrap own).weaken ?_
  rintro _ _ ⟨_, _, holds⟩
  exact holds

end StageBody

namespace Stage

variable {stage : Stage} {rows out : List Row}

private theorem delivers_sort {gathering : SortStage} (refusal : ∀ error, IsRefusal error → excused error)
    (same : stage.body = .sort gathering) (unended : stage.phase.isTerminal = false)
    (promise : gathering.Promises out rows) (delivers : next.Delivers excused good below out) :
    (receiver services next).Delivers excused (fun state => good state.2) (stage, below) rows := by
  refine delivers_gathered (fun _ _ _ _ => rfl)
    (fun gathering row rest promise job => gathering.takeRow_promises refusal row rest promise job)
    (fun gathering promise job => ?_) unended same promise
  rw [← SortStage.rows_of_promise promise] at delivers
  exact Runs.own_bind (StageBody.within_good (delivers.emitAll job))

private theorem delivers_top {gathering : TopStage} (refusal : ∀ error, IsRefusal error → excused error)
    (same : stage.body = .top gathering) (unended : stage.phase.isTerminal = false)
    (promise : gathering.Promises out rows) (delivers : next.Delivers excused good below out) :
    (receiver services next).Delivers excused (fun state => good state.2) (stage, below) rows := by
  refine delivers_gathered (fun _ _ _ _ => rfl)
    (fun gathering row rest promise job => gathering.takeRow_promises refusal row rest promise job)
    (fun gathering promise job => ?_) unended same promise
  rw [← TopStage.rows_of_promise promise] at delivers
  exact Runs.own_bind (StageBody.within_good (delivers.emitAll job))

private theorem delivers_count {gathering : CountStage} (same : stage.body = .count gathering)
    (unended : stage.phase.isTerminal = false) (promise : gathering.Promises out rows)
    (delivers : next.Delivers excused good below out) :
    (receiver services next).Delivers excused (fun state => good state.2) (stage, below) rows := by
  refine delivers_gathered (fun _ _ _ _ => rfl)
    (fun gathering row rest promise job => gathering.takeRow_promises row rest promise job)
    (fun gathering promise job => ?_) unended same promise
  obtain ⟨total, folded, rfl⟩ := promise
  obtain rfl : gathering.total = total := Except.ok.inj folded
  exact Runs.own_bind (StageBody.within_good (Receiver.Delivers.emitOne gathering _ delivers job))

theorem delivers_aggregate {gathering : AggregateStage} {result : Except EvaluationFault (List Row)}
    (faults : ∀ fault, result = .error fault → excused (.evaluation fault))
    (same : stage.body = .aggregate gathering) (unended : stage.phase.isTerminal = false)
    (promise : gathering.Promises result rows)
    (delivers : ∀ out, result = .ok out → next.Delivers excused good below out) :
    (receiver services next).Delivers excused (fun state => good state.2) (stage, below) rows := by
  refine delivers_gathered (fun _ _ _ _ => rfl)
    (fun gathering row rest promise job =>
      gathering.takeRow_promises faults row rest promise job)
    (fun gathering promise job => ?_) unended same promise
  have emitted := delivers [Aggregate.terminateAll gathering.states] promise.symm
  exact Runs.own_bind (StageBody.within_good (Receiver.Delivers.emitOne gathering _ emitted job))

end Stage

/-! ### Projections -/

namespace Projection

/-- A compiled projection delivers what its list function makes of the rows. -/
theorem delivers_of_compile {projection : Projection} {job : Job σ} {body : StageBody}
    {function : List Row → Except EvaluationFault (List Row)} {rows middle : List Row}
    (compiled : projection.compileBody services settings job = .ok body)
    (listed : projection.listFunction? = some function) (applied : function rows = .ok middle)
    (counted : rows.length ≤ Bucket.greatestSize)
    (bounded : projection = .mergeCount → Counts.Bounded rows)
    (delivers : next.Delivers IsRefusal good below middle) :
    (Stage.receiver services next).Delivers IsRefusal (fun state => good state.2)
      (⟨projection.kind, body, .created⟩, below) rows := by
  have refusal : ∀ error, IsRefusal error → IsRefusal error := fun _ refused => refused
  cases projection with
  | filter query =>
    obtain rfl := Option.some.inj listed
    obtain ⟨expression, checked, same⟩ := ok_of_bind compiled
    obtain rfl := Except.ok.inj same
    exact Stage.delivers_passed (FilterStage.passes checked applied) rfl delivers
  | eval outputs =>
    obtain rfl := Option.some.inj listed
    obtain ⟨expressions, checked, same⟩ := ok_of_bind compiled
    obtain rfl := Except.ok.inj same
    exact Stage.delivers_passed (EvalStage.passes checked applied) rfl delivers
  | topN limit offset =>
    obtain rfl := Option.some.inj listed
    obtain ⟨_, _, same⟩ := ok_of_bind compiled
    obtain rfl := Except.ok.inj same
    obtain rfl := Except.ok.inj applied
    exact Stage.delivers_passed (SliceStage.passes offset limit rows) rfl delivers
  | orderedTopN parameters =>
    obtain rfl := Option.some.inj listed
    obtain ⟨sorting, sorted, unlimited, limited⟩ := OrderedTopN.sortedBy_of_compile compiled
    cases bound : parameters.limit with
    | none =>
      have promise := OrderedTopN.sort_promises sorted bound applied
      exact Stage.delivers_sort refusal (unlimited bound) rfl promise delivers
    | some limit =>
      have promise := OrderedTopN.top_promises sorted bound applied counted
      exact Stage.delivers_top refusal (limited limit bound) rfl promise delivers
  | aggregation calls mode =>
    obtain rfl := Option.some.inj listed
    obtain ⟨aggregates, checked, same⟩ := ok_of_bind compiled
    obtain rfl := Except.ok.inj same
    have promise := AggregateStage.promises_of_aggregateRows checked applied
    refine Stage.delivers_aggregate (fun _ failed => by cases failed) rfl rfl promise fun _ same => ?_
    obtain rfl := Except.ok.inj same
    exact delivers
  | mergeCount =>
    obtain rfl := Option.some.inj listed
    obtain rfl := Except.ok.inj compiled
    exact Stage.delivers_count rfl rfl (Counts.promises_of_sumRows applied (bounded rfl)) delivers
  | _ => cases listed

theorem compileAll_single {projection : Projection} {body : StageBody} {job : Job σ}
    (compiled : projection.compileBody services settings job = .ok body) :
    (compileAll services settings [projection] job).1 = .ok [⟨projection.kind, body, .created⟩] := by
  simp only [compileAll, compile, compiled]

theorem compileBody_single {projection : Projection} {stages : List Stage} {job : Job σ}
    (compiled : (compileAll services settings [projection] job).1 = .ok stages) :
    ∃ body, projection.compileBody services settings job = .ok body := by
  unfold compileAll compile at compiled
  cases done : projection.compileBody services settings job with
  | error error =>
    rw [done] at compiled
    cases compiled
  | ok body => exact ⟨body, rfl⟩

private theorem length_of_filterRows {query : Symbol} {rows out : List Row}
    (filtered : query.filterRows rows = .ok out) : out.length ≤ rows.length := by
  induction rows generalizing out with
  | nil =>
    obtain rfl : [] = out := Except.ok.inj filtered
    exact Nat.le_refl 0
  | cons row rest ih =>
    obtain ⟨passes, _, filtered⟩ := ok_of_bind filtered
    obtain ⟨others, later, filtered⟩ := ok_of_bind filtered
    obtain rfl := Except.ok.inj filtered
    have bound := ih later
    cases passes <;> simp <;> omega

/-- No projection makes more rows than it is given, apart from a single one. -/
theorem length_of_listFunction {projection : Projection}
    {function : List Row → Except EvaluationFault (List Row)} {rows out : List Row}
    (listed : projection.listFunction? = some function) (applied : function rows = .ok out) :
    out.length ≤ max rows.length 1 := by
  cases projection with
  | filter query =>
    obtain rfl := Option.some.inj listed
    have bound := length_of_filterRows applied
    omega
  | eval outputs =>
    obtain rfl := Option.some.inj listed
    have same := length_of_mapM applied
    omega
  | topN limit offset =>
    obtain rfl := Option.some.inj listed
    obtain rfl := Except.ok.inj applied
    simp only [List.length_take, List.length_drop]
    omega
  | orderedTopN parameters =>
    obtain rfl := Option.some.inj listed
    obtain ⟨sorted, sorts, applied⟩ := ok_of_bind applied
    obtain ⟨ranked, ranks, sorts⟩ := ok_of_bind sorts
    obtain rfl := Except.ok.inj sorts
    obtain rfl := Except.ok.inj applied
    have same := length_of_mapM ranks
    cases parameters.limit <;> simp [OrderedTopN.limited] <;> omega
  | aggregation calls mode =>
    obtain rfl := Option.some.inj listed
    obtain ⟨states, _, applied⟩ := ok_of_bind applied
    obtain rfl := Except.ok.inj applied
    exact Nat.le_max_right _ _
  | mergeCount =>
    obtain rfl := Option.some.inj listed
    obtain ⟨_, _, _, _, rfl⟩ := Counts.total_of_sumRows applied
    exact Nat.le_max_right _ _
  | _ => cases listed

theorem CountsBounded.head {projection : Projection} {plan : List Projection} {rows : List Row}
    (bounded : CountsBounded (projection :: plan) rows) (counts : projection = .mergeCount) :
    Counts.Bounded rows :=
  bounded [] plan rows (counts ▸ rfl) .nil

theorem CountsBounded.tail {projection : Projection} {plan : List Projection} {rows middle : List Row}
    {function : List Row → Except EvaluationFault (List Row)}
    (bounded : CountsBounded (projection :: plan) rows)
    (listed : projection.listFunction? = some function) (applied : function rows = .ok middle) :
    CountsBounded plan middle := by
  rintro before after rest rfl meaning
  exact bounded (projection :: before) after rest rfl (.cons listed applied meaning)

theorem CountsBounded.of_absent {plan : List Projection} (rows : List Row)
    (absent : .mergeCount ∉ plan) : CountsBounded plan rows := by
  rintro before after _ rfl
  simp at absent

theorem ListMeaning.unique {plan : List Projection} {rows out other : List Row}
    (meaning : ListMeaning plan rows out) (again : ListMeaning plan rows other) : out = other := by
  induction meaning with
  | nil =>
    cases again
    rfl
  | cons listed applied _ ih =>
    cases again with
    | cons listed' applied' rest =>
      obtain rfl := Option.some.inj (listed.symm.trans listed')
      obtain rfl := Except.ok.inj (applied.symm.trans applied')
      exact ih rest

private theorem CountsBounded.of_once {before after : List Projection} {rows middle : List Row}
    (earlier : .mergeCount ∉ before) (later : .mergeCount ∉ after)
    (meaning : ListMeaning before rows middle) (bounded : Counts.Bounded middle) :
    CountsBounded (before ++ .mergeCount :: after) rows := by
  intro before' after' middle' split meaning'
  obtain ⟨rfl, -, rfl⟩ := (List.append_cons_inj_of_notMem earlier later).mp split
  rwa [meaning'.unique meaning]

end Projection

/-! ### Chains and plans -/

/-- A collector delivers the rows that it is given, behind those that it has. -/
theorem Terminal.delivers (newest rows : List Row) :
    (Terminal.receiver : Receiver σ Terminal).Delivers excused
      (fun terminal => terminal.result = .ok (newest.reverse ++ rows))
      (.collecting ⟨newest, none⟩) rows := by
  refine ⟨rfl, fun job => ?_⟩
  induction rows generalizing newest job with
  | nil =>
    refine Runs.pure fun job => Runs.of_eq rfl ?_
    rw [List.append_nil]
    rfl
  | cons row rest ih =>
    have taken : Runs (Terminal.takeRow row) excused
        (fun flow last => flow = .more ∧ last = (Terminal.collecting ⟨row :: newest, none⟩, job))
        (Terminal.collecting ⟨newest, none⟩, job) := Runs.of_eq rfl ⟨rfl, rfl⟩
    refine taken.bind ?_
    rintro flow last ⟨rfl, rfl⟩
    have later := ih (row :: newest) job
    rw [List.reverse_cons, List.append_assoc] at later
    exact later

theorem Chain.delivers {plan : List Projection} {stages : List Stage} {rows out : List Row}
    (compiled : Projection.Compiled services settings plan stages)
    (meaning : Projection.ListMeaning plan rows out) (bounded : Projection.CountsBounded plan rows)
    (counted : rows.length ≤ Bucket.greatestSize) :
    (receiver services stages.length).Delivers IsRefusal
      (fun chain => (terminal stages.length chain).result = .ok out)
      (ofStages (.collecting {}) stages) rows := by
  induction compiled generalizing rows with
  | nil =>
    cases meaning
    exact Terminal.delivers [] _
  | cons compiled _ ih =>
    cases meaning with
    | cons listed applied later =>
      have bound := Projection.length_of_listFunction listed applied
      have below := ih later (bounded.tail listed applied)
        (Nat.le_trans bound (Nat.max_le.mpr ⟨counted, by decide⟩))
      exact Projection.delivers_of_compile compiled listed applied counted bounded.head below

namespace Plan

/-- What a run of stages comes to is what their chain delivers. -/
theorem runStages_delivers {stages : List Stage} {rows : List Row} {emits : List Row → Prop}
    (delivers : (Chain.receiver services stages.length).Delivers excused
      (fun chain => ∃ out, emits out ∧ (Chain.terminal stages.length chain).result = .ok out)
      (Chain.ofStages (.collecting {}) stages) rows) (job : Job σ) :
    (∃ error, (runStages services stages rows job).1 = .error error ∧ excused error) ∨
      ∃ out, emits out ∧ (runStages services stages rows job).1 = .ok out := by
  have drained := delivers.drain job
  unfold runStages Chain.run Receiver.run
  rcases run : (Chain.receiver services stages.length).drain rows
    (Chain.ofStages (.collecting {}) stages, job) with ⟨error | _, chain, last⟩
  · exact .inl ⟨error, by simp only [run], drained.error run⟩
  · obtain ⟨out, emitted, result⟩ := drained.ok run
    exact .inr ⟨out, emitted, by simp only [run, result]⟩

/-- A plan emits the rows that its chain delivers, unless the memory of the job is refused. -/
theorem execute_delivers {plan : List Projection} {stages : List Stage} {rows out : List Row}
    {job : Job σ} (compiled : (Projection.compileAll services settings plan job).1 = .ok stages)
    (delivers : (Chain.receiver services stages.length).Delivers IsRefusal
      (fun chain => (Chain.terminal stages.length chain).result = .ok out)
      (Chain.ofStages (.collecting {}) stages) rows)
    (granted : MemoryGranted (execute services settings plan rows job).1) :
    (execute services settings plan rows job).1 = .ok out := by
  have emits : (Chain.receiver services stages.length).Delivers IsRefusal
      (fun chain => ∃ emitted, emitted = out ∧
        (Chain.terminal stages.length chain).result = .ok emitted)
      (Chain.ofStages (.collecting {}) stages) rows :=
    delivers.weaken fun _ result => ⟨out, rfl, result⟩
  obtain ⟨after, same⟩ := execute_compiled compiled rows
  rw [same] at granted ⊢
  rcases runStages_delivers emits after with ⟨error, failed, refused⟩ | ⟨_, rfl, emitted⟩
  · exact absurd refused (granted error failed)
  · exact emitted

/-- A plan of projections that only look at rows emits what they mean, unless the memory of the job
is refused or a sum of counts is too great on the way. A list of rows is no longer than can be counted in
64 bits. -/
theorem execute_listMeaning (services : Services σ) (settings : Settings) (plan : List Projection)
    (stages : List Stage) (rows out : List Row) (job : Job σ)
    (compiled : (Projection.compileAll services settings plan job).1 = .ok stages)
    (meaning : Projection.ListMeaning plan rows out) (bounded : Projection.CountsBounded plan rows)
    (counted : rows.length ≤ Bucket.greatestSize)
    (granted : MemoryGranted (execute services settings plan rows job).1) :
    (execute services settings plan rows job).1 = .ok out := by
  have chained := Projection.compileAll_compiled compiled
  exact execute_delivers compiled (Chain.delivers chained meaning bounded counted) granted

/-- Nested limits around a sort, counts and an aggregation: of four rows that pass the filter, the
second and the third in descending order are added up. -/
theorem execute_listMeaning_nested :
    let sort : OrderedTopN :=
      { outputs := [.input 0], orderBy := [.input 0], reverseFlags := [true], nullsFirst := []
        limit := some 2, offset := 1 }
    let before : List Projection :=
      [.filter (.call .isNull [.input 1]), .topN 4 0, .eval [.input 0], .orderedTopN sort]
    let after : List Projection :=
      [.aggregation [⟨.sum, [.input 0]⟩, ⟨.countStar, []⟩] .iterFinal, .topN 5 0]
    let plan := before ++ .mergeCount :: after
    let rows : List Row :=
      [[.long 1, .null], [.long 2, .null], [.long 3, .bool true], [.long 4, .null], [.long 5, .null]]
    (Projection.ListMeaning plan rows [[.long 6, .long 1]] ∧ Projection.CountsBounded plan rows ∧
        rows.length ≤ Bucket.greatestSize) ∧
      (execute Simulation.services {} plan rows Job.alone).1 = .ok [[.long 6, .long 1]] := by
  intro sort before after plan rows
  have sorts : sort.sliceRows [[.long 1], [.long 2], [.long 4], [.long 5]] =
      .ok [[.long 4], [.long 2]] := by
    let le := sort.keyOrder.le
    have apart : le [.long 1] [.long 2] = false ∧ le [.long 1] [.long 4] = false ∧
        le [.long 1] [.long 5] = false ∧ le [.long 2] [.long 4] = false ∧
          le [.long 2] [.long 5] = false ∧ le [.long 4] [.long 5] = false := by decide +kernel
    have ranked : [[.long 1], [.long 2], [.long 4], [.long 5]].mapM sort.rank =
        .ok [([.long 1], [.long 1]), ([.long 2], [.long 2]), ([.long 4], [.long 4]),
          ([.long 5], [.long 5])] := rfl
    rw [OrderedTopN.sliceRows, OrderedTopN.sortRows, ranked]
    change Except.ok (OrderedTopN.limited _
      (((List.mergeSort _ fun (left right : Row × Row) => le left.2 right.2).drop _).map _)) = _
    simp [List.mergeSort, apart, OrderedTopN.limited, sort]
  have first : Projection.ListMeaning before rows [[.long 4], [.long 2]] :=
    .cons rfl rfl (.cons rfl rfl (.cons rfl rfl (.cons rfl sorts .nil)))
  have meaning : Projection.ListMeaning plan rows [[.long 6, .long 1]] :=
    .cons rfl rfl (.cons rfl rfl (.cons rfl rfl (.cons rfl sorts
      (.cons rfl rfl (.cons rfl rfl (.cons rfl rfl .nil))))))
  have bounded : Projection.CountsBounded plan rows :=
    .of_once (by simp [before]) (by simp [after]) first (by decide)
  have counted : rows.length ≤ Bucket.greatestSize := by decide
  have done : (execute Simulation.services {} plan rows Job.alone).1.isOk = true := by decide +kernel
  exact ⟨⟨meaning, bounded, counted⟩, execute_listMeaning Simulation.services {} plan _ rows _ Job.alone rfl
    meaning bounded counted (.of_isOk done)⟩

/-- The sum of all counts is not too great, but that of the first two is. -/
theorem not_execute_listMeaning_transient :
    let rows : List Row := [[.long 9223372036854775807], [.long 1], [.long (-1)]]
    let answer := (execute Simulation.services {} [.mergeCount] rows Job.alone).1
    (∃ stages, (Projection.compileAll Simulation.services {} [.mergeCount] Job.alone).1 = .ok stages) ∧
      Projection.ListMeaning [.mergeCount] rows [[.long 9223372036854775807]] ∧
      MemoryGranted answer ∧ answer = .error (.evaluation .countOverflow) := by
  intro rows answer
  have failed : answer = .error (.evaluation .countOverflow) := rfl
  refine ⟨⟨_, rfl⟩, .cons rfl rfl .nil, ?_, failed⟩
  rintro error same ⟨_, _, _, _, rfl, _⟩
  rw [failed] at same
  cases same

end Plan

end RowPipeline
