import RowPipeline.Proofs.Groups
import RowPipeline.Proofs.PlanMeaning

/-!
What a stage makes of rows that it groups, or aggregates without keys. A grouping that succeeds emits
the groups of the rows.
-/

namespace RowPipeline

open Turn ExecutionError

variable {σ δ : Type} {services : Services σ} {settings : Settings} {next : Receiver σ δ}
variable {excused : ExecutionError → Prop} {good : δ → Prop} {below : δ}

/-! ### Groups of a stage -/

namespace RowGroup

/-- The group of a key, which is new if the row is the first that has the key. -/
def opened (keys : List Expression) (aggregates : List Aggregate) (row : Row) :
    Option RowGroup → Except EvaluationFault RowGroup
  | none => return ⟨← Expression.evaluateAll keys row, Aggregate.initialAll aggregates⟩
  | some group => return group

/-- The group of a key after one more row that has the key. -/
def advance (keys : List Expression) (aggregates : List Aggregate) (group : Option RowGroup)
    (row : Row) : Except EvaluationFault (Option RowGroup) := do
  let group ← opened keys aggregates row group
  let states ← group.states.mapM (Aggregate.advance row)
  return some { group with states := states }

theorem advance_of_evaluateAll {keys : List Expression} {aggregates : List Aggregate} {own row : Row}
    {group : Option RowGroup} {states : List (Aggregate × AggregateState)}
    (evaluated : Expression.evaluateAll keys row = .ok own)
    (advanced : (group.getD ⟨own, Aggregate.initialAll aggregates⟩).states.mapM
      (Aggregate.advance row) = .ok states) :
    advance keys aggregates group row =
      .ok (some { group.getD ⟨own, Aggregate.initialAll aggregates⟩ with states := states }) := by
  have known : opened keys aggregates row group =
      .ok (group.getD ⟨own, Aggregate.initialAll aggregates⟩) := by
    cases group with
    | none =>
      rw [opened, evaluated]
      rfl
    | some group => rfl
  simp only [advance, known]
  change (List.mapM (Aggregate.advance row) _ >>= fun states => Except.ok (some _)) = _
  rw [advanced]
  rfl

end RowGroup

namespace GroupStage

/-- The group that has a key. -/
def lookup (groups : List RowGroup) (key : Row) : Option RowGroup :=
  groups.find? (·.key.same key)

/-- The groups with one for a key, which may be new. -/
def ensured (aggregates : List Aggregate) (key : Row) (groups : List RowGroup) : List RowGroup :=
  if groups.any (·.key.same key) then groups
  else groups ++ [⟨key, Aggregate.initialAll aggregates⟩]

/-- The groups after one more row. -/
def stepRow (keys : List Expression) (aggregates : List Aggregate) (groups : List RowGroup)
    (row : Row) : Except EvaluationFault (List RowGroup) := do
  let key ← Expression.evaluateAll keys row
  match stepGroup key row (ensured aggregates key groups) with
  | (groups, none) => .ok groups
  | (_, some fault) => .error fault

variable {aggregates : List Aggregate} {groups after : List RowGroup} {own key row : Row}

theorem stepRow_of_evaluateAll {keys : List Expression}
    (evaluated : Expression.evaluateAll keys row = .ok own) :
    stepRow keys aggregates groups row =
      match stepGroup own row (ensured aggregates own groups) with
      | (groups, none) => .ok groups
      | (_, some fault) => .error fault := by
  rw [stepRow, evaluated]
  rfl

theorem keys_stepGroup (own row : Row) (groups : List RowGroup) :
    (stepGroup own row groups).1.map (·.key) = groups.map (·.key) := by
  induction groups with
  | nil => rfl
  | cons group rest ih =>
    rw [stepGroup]
    split
    · rfl
    · exact congrArg (group.key :: ·) ih

private theorem lookup_stepGroup_other (other : own.same key = false) :
    lookup (stepGroup own row groups).1 key = lookup groups key := by
  induction groups with
  | nil => rfl
  | cons group rest ih =>
    rw [stepGroup]
    split
    · next same =>
      have different : group.key.same key = false := by rw [Row.same_congr same, other]
      simp only [lookup, List.find?_cons, different]
    · simp only [lookup, List.find?_cons] at ih ⊢
      rw [ih]

private theorem lookup_stepGroup (same : own.same key = true) {group : RowGroup}
    (found : lookup groups key = some group) (stepped : stepGroup own row groups = (after, none)) :
    ∃ states, group.states.mapM (Aggregate.advance row) = .ok states ∧
      lookup after key = some { group with states := states } := by
  induction groups generalizing after with
  | nil => cases found
  | cons first rest ih =>
    rw [stepGroup] at stepped
    split at stepped
    · next here =>
      have hit : first.key.same key = true := by rw [Row.same_congr here, same]
      obtain rfl : first = group := by simpa [lookup, hit] using found
      have advanced := Aggregate.stepAll_eq row first.states
      rcases step : Aggregate.stepAll row first.states with ⟨states, fault⟩
      rw [step] at stepped advanced
      obtain rfl : _ = after := congrArg Prod.fst stepped
      obtain rfl : fault = none := congrArg Prod.snd stepped
      refine ⟨states, advanced, ?_⟩
      simp [lookup, hit]
    · next here =>
      have miss : first.key.same key = false := by
        rw [Row.same_comm, ← Row.same_congr same, Row.same_comm]
        simpa using here
      rcases step : stepGroup own row rest with ⟨others, fault⟩
      rw [step] at stepped
      obtain rfl : _ = after := congrArg Prod.fst stepped
      obtain rfl : fault = none := congrArg Prod.snd stepped
      simp only [lookup, List.find?_cons, miss] at found ⊢
      exact ih found step

private theorem distinct_ensured (aggregates : List Aggregate) (own : Row)
    (distinct : Row.Distinct (groups.map (·.key))) :
    Row.Distinct ((ensured aggregates own groups).map (·.key)) := by
  unfold ensured
  split
  · exact distinct
  · next absent =>
    rw [List.map_append, List.map_singleton]
    refine List.pairwise_append.mpr ⟨distinct, List.pairwise_singleton _ _, fun key member new fresh => ?_⟩
    obtain ⟨group, known, rfl⟩ := List.mem_map.mp member
    rw [List.mem_singleton.mp fresh]
    simp only [List.any_eq_true, not_exists, not_and, Bool.not_eq_true] at absent
    exact absent group known

private theorem lookup_ensured_other (other : own.same key = false) :
    lookup (ensured aggregates own groups) key = lookup groups key := by
  unfold ensured
  split
  · rfl
  · simp [lookup, other]

theorem lookup_ensured (same : own.same key = true) :
    lookup (ensured aggregates own groups) key =
      some ((lookup groups key).getD ⟨own, Aggregate.initialAll aggregates⟩) := by
  have congr : ∀ group : RowGroup, group.key.same own = group.key.same key := fun group => by
    rw [Row.same_comm, Row.same_congr same, Row.same_comm]
  unfold ensured
  simp only [congr]
  split
  · next present =>
    rw [List.any_eq_true, ← List.find?_isSome, Option.isSome_iff_exists] at present
    obtain ⟨group, found⟩ := present
    rw [lookup, found]
    rfl
  · next absent =>
    have missing : groups.find? (·.key.same key) = none := by
      simpa [List.find?_eq_none] using absent
    simp [lookup, missing, same]

variable {symbols : List Symbol} {keys : List Expression}

/-- What a row does to the groups: the group of its key goes on, and the others stay. -/
theorem lookup_stepRow (compiled : Expression.compileAll symbols = .ok keys)
    (stepped : stepRow keys aggregates groups row = .ok after) (key : Row) :
    (if AggregateCall.hasKey symbols key row then
      RowGroup.advance keys aggregates (lookup groups key) row
    else pure (lookup groups key)) = .ok (lookup after key) := by
  obtain ⟨own, evaluated, stepped⟩ := ok_of_bind stepped
  split at stepped
  case h_2 => cases stepped
  next moved step =>
  obtain rfl := Except.ok.inj stepped
  rw [AggregateCall.hasKey, ← Expression.evaluateAll_of_compileAll compiled, evaluated]
  cases same : Row.same own key with
  | true =>
    obtain ⟨states, advanced, found⟩ := lookup_stepGroup same (lookup_ensured same) step
    rw [found]
    simp only [same, if_true]
    exact RowGroup.advance_of_evaluateAll evaluated advanced
  | false =>
    have moved : lookup (stepGroup own row (ensured aggregates own groups)).1 key =
      lookup groups key := (lookup_stepGroup_other same).trans (lookup_ensured_other same)
    rw [step] at moved
    rw [moved]
    simp only [same]
    rfl

private theorem distinct_stepRow (stepped : stepRow keys aggregates groups row = .ok after)
    (distinct : Row.Distinct (groups.map (·.key))) : Row.Distinct (after.map (·.key)) := by
  obtain ⟨own, _, stepped⟩ := ok_of_bind stepped
  split at stepped
  · next moved step =>
    obtain rfl := Except.ok.inj stepped
    have same := keys_stepGroup own row (ensured aggregates own groups)
    rw [step] at same
    rw [same]
    exact distinct_ensured aggregates own distinct
  · cases stepped

private theorem lookup_foldlM (compiled : Expression.compileAll symbols = .ok keys) {rows : List Row}
    (folded : rows.foldlM (stepRow keys aggregates) groups = .ok after) (key : Row) :
    (rows.filter (AggregateCall.hasKey symbols key)).foldlM (RowGroup.advance keys aggregates)
      (lookup groups key) = .ok (lookup after key) := by
  induction rows generalizing groups with
  | nil =>
    obtain rfl := Except.ok.inj folded
    rfl
  | cons row rest ih =>
    rw [List.foldlM_cons] at folded
    obtain ⟨middle, stepped, folded⟩ := ok_of_bind folded
    have step := lookup_stepRow compiled stepped key
    have later := ih folded
    rw [List.filter_cons]
    split at step
    · next here =>
      rw [if_pos here, List.foldlM_cons, step]
      exact later
    · next other =>
      rw [if_neg other, Except.ok.inj step]
      exact later

private theorem distinct_foldlM {rows : List Row}
    (folded : rows.foldlM (stepRow keys aggregates) groups = .ok after)
    (distinct : Row.Distinct (groups.map (·.key))) : Row.Distinct (after.map (·.key)) := by
  induction rows generalizing groups with
  | nil =>
    obtain rfl := Except.ok.inj folded
    exact distinct
  | cons row rest ih =>
    rw [List.foldlM_cons] at folded
    obtain ⟨middle, stepped, folded⟩ := ok_of_bind folded
    exact ih folded (distinct_stepRow stepped distinct)

end GroupStage

namespace RowGroup

/-- A group without what it was compiled from. -/
def keyGroup (group : RowGroup) : KeyGroup := ⟨group.key, group.states.map (·.2)⟩

variable {symbols : List Symbol} {keys : List Expression} {calls : List AggregateCall}
variable {aggregates : List Aggregate} {mode : AggregateMode}

theorem foldlM_some (group : RowGroup) (rows : List Row) :
    rows.foldlM (advance keys aggregates) (some group) = (do
      let states ← Aggregate.foldAll rows group.states
      return some { group with states := states }) := by
  induction rows generalizing group with
  | nil => rfl
  | cons row rest ih =>
    have one : advance keys aggregates (some group) row = (do
        let states ← group.states.mapM (Aggregate.advance row)
        return some { group with states := states }) := rfl
    rw [List.foldlM_cons, one, Aggregate.foldAll, List.foldlM_cons]
    cases group.states.mapM (Aggregate.advance row) with
    | error fault => rfl
    | ok middle => exact ih { group with states := middle }

/-- What the rows of a key come to, one by one, is the group of the key. -/
theorem groupOf_of_foldlM (compiled : Aggregate.compileAll mode calls = .ok aggregates)
    (compiledKeys : Expression.compileAll symbols = .ok keys) {key : Row} {rows : List Row}
    {found : Option RowGroup}
    (folded : (rows.filter (AggregateCall.hasKey symbols key)).foldlM (advance keys aggregates) none =
      .ok found) :
    AggregateCall.groupOf symbols calls mode key rows = .ok (found.map keyGroup) ∧
      ∀ group, found = some group → group.row = group.keyGroup.row mode := by
  rw [AggregateCall.groupOf]
  split
  · next none =>
    rw [none] at folded
    obtain rfl := Except.ok.inj folded
    refine ⟨rfl, ?_⟩
    rintro _ ⟨⟩
  · next first rest some =>
    rw [some, List.foldlM_cons] at folded
    obtain ⟨middle, stepped, folded⟩ := ok_of_bind folded
    obtain ⟨opened, started, stepped⟩ := ok_of_bind stepped
    obtain ⟨own, evaluated, started⟩ := ok_of_bind started
    obtain rfl := Except.ok.inj started
    obtain ⟨states, advanced, stepped⟩ := ok_of_bind stepped
    obtain rfl := Except.ok.inj stepped
    rw [foldlM_some] at folded
    obtain ⟨finals, later, folded⟩ := ok_of_bind folded
    obtain rfl := Except.ok.inj folded
    have whole : Aggregate.foldAll (first :: rest) (Aggregate.initialAll aggregates) =
        .ok finals := by
      rw [Aggregate.foldAll, List.foldlM_cons, advanced]
      exact later
    obtain ⟨states, folds, rfl⟩ := (Aggregate.foldAll_of_compileAll compiled).mp whole
    have lengths : states.length = aggregates.length :=
      (length_of_mapM folds).trans (length_of_mapM compiled).symm
    have cells : (aggregates.zip states).map (·.2) = states :=
      List.map_snd_zip (Nat.le_of_eq lengths)
    rw [Expression.evaluateAll_of_compileAll compiledKeys] at evaluated
    rw [evaluated, folds]
    constructor
    · simp only [Option.map, keyGroup, cells]
      rfl
    · rintro _ ⟨⟩
      rw [row, KeyGroup.row, keyGroup, cells,
        Aggregate.terminateAll_zip compiled (length_of_mapM folds)]

end RowGroup

namespace GroupStage

variable {symbols : List Symbol} {keys : List Expression} {calls : List AggregateCall}
variable {aggregates : List Aggregate} {mode : AggregateMode}

theorem groups_of_foldlM (compiled : Aggregate.compileAll mode calls = .ok aggregates)
    (compiledKeys : Expression.compileAll symbols = .ok keys) {rows : List Row}
    {groups : List RowGroup} (folded : rows.foldlM (stepRow keys aggregates) [] = .ok groups) :
    AggregateCall.Groups symbols calls mode rows (groups.map RowGroup.keyGroup) ∧
      groups.map RowGroup.row = (groups.map RowGroup.keyGroup).map (KeyGroup.row mode) := by
  -- Distinct keys make every group the one that is found for its key.
  have distinct := distinct_foldlM folded List.Pairwise.nil
  have meaning := fun key => RowGroup.groupOf_of_foldlM compiled compiledKeys
    (lookup_foldlM compiledKeys folded key)
  refine ⟨⟨?_, fun key => ?_⟩, ?_⟩
  · rw [List.map_map]
    exact distinct
  · rw [(meaning key).1, List.find?_map]
    rfl
  · rw [List.map_map]
    refine List.map_congr_left fun group member => ?_
    exact (meaning group.key).2 group (distinct.find?_eq member)

/-- What a stage emits once the rows to come are in their groups. -/
def Promises (result : Except EvaluationFault (List Row)) (stage : GroupStage)
    (rest : List Row) : Prop :=
  (rest.foldlM (stepRow stage.keys stage.aggregates) stage.groups).map (·.map RowGroup.row) = result

private theorem runs_ensureGroup (refusal : ∀ error, IsRefusal error → excused error) (key : Row)
    (stage : GroupStage) (job : Job σ) :
    Runs (ensureGroup key) excused
      (fun _ last => last.1.keys = stage.keys ∧ last.1.aggregates = stage.aggregates ∧
        last.1.groups = ensured stage.aggregates key stage.groups) (stage, job) := by
  refine Runs.own_bind ?_
  rw [ensured]
  cases known : stage.hasGroup key with
  | true =>
    rw [hasGroup] at known
    exact Runs.pure ⟨rfl, rfl, by rw [if_pos known]⟩
  | false =>
    rw [hasGroup] at known
    refine (Runs.charge refusal).bind ?_
    rintro share ⟨_, job⟩ rfl
    exact ⟨rfl, rfl, by rw [known]; rfl⟩

theorem takeRow_promises {result : Except EvaluationFault (List Row)}
    (refusal : ∀ error, IsRefusal error → excused error)
    (faults : ∀ fault, result = .error fault → excused (.evaluation fault)) (stage : GroupStage)
    (row : Row) (rest : List Row) (promise : stage.Promises result (row :: rest)) (job : Job σ) :
    Runs (takeRow row) excused (fun flow last => flow = .more ∧ last.1.Promises result rest)
      (stage, job) := by
  refine Runs.own_bind ?_
  rw [Promises, List.foldlM_cons] at promise
  cases evaluated : Expression.evaluateAll stage.keys row with
  | error fault =>
    rw [stepRow, evaluated] at promise
    exact faults fault promise.symm
  | ok key =>
    rw [evaluated_ok, pure_bind]
    refine (runs_ensureGroup refusal key stage job).bind ?_
    rintro _ ⟨moved, job⟩ ⟨keys, aggregates, groups⟩
    rw [stepRow_of_evaluateAll evaluated, ← groups] at promise
    refine Runs.own_bind ?_
    rcases step : stepGroup key row moved.groups with ⟨after, _ | fault⟩
    · rw [step] at promise
      refine Runs.setOwn_bind (Runs.pure ⟨rfl, ?_⟩)
      rw [Promises, keys, aggregates]
      exact promise
    · rw [step] at promise
      exact faults fault promise.symm

end GroupStage

theorem Stage.delivers_group {stage : Stage} {rows : List Row} {gathering : GroupStage}
    {result : Except EvaluationFault (List Row)}
    (refusal : ∀ error, IsRefusal error → excused error)
    (faults : ∀ fault, result = .error fault → excused (.evaluation fault))
    (same : stage.body = .group gathering) (unended : stage.phase.isTerminal = false)
    (promise : gathering.Promises result rows)
    (delivers : ∀ out, result = .ok out → next.Delivers excused good below out) :
    (receiver services next).Delivers excused (fun state => good state.2) (stage, below) rows := by
  refine delivers_gathered (fun _ _ _ _ => rfl)
    (fun gathering row rest promise job =>
      gathering.takeRow_promises refusal faults row rest promise job)
    (fun gathering promise job => ?_) unended same promise
  have emitted := delivers gathering.rows promise.symm
  exact Runs.own_bind (StageBody.within_good (emitted.emitAll job))

namespace Plan

variable {projection : Projection} {rows out : List Row} {job : Job σ}

theorem compileBody_of_execute (done : (execute services settings [projection] rows job).1 = .ok out) :
    ∃ body, projection.compileBody services settings job = .ok body := by
  unfold execute at done
  rcases compiled : Projection.compileAll services settings [projection] job with ⟨_ | stages, after⟩
  · rw [compiled] at done
    cases done
  · exact Projection.compileBody_single (congrArg Prod.fst compiled)

/-- A single stage fails with an excuse, or emits what it delivers to a collector. -/
theorem outcome_of_execute {body : StageBody} {result : Except EvaluationFault (List Row)}
    (compiled : projection.compileBody services settings job = .ok body)
    (delivers : ∀ {good : Terminal → Prop},
      (∀ emitted, result = .ok emitted → (Terminal.receiver : Receiver σ Terminal).Delivers
        excused good (.collecting {}) emitted) →
      (Stage.receiver services Terminal.receiver).Delivers excused (fun state => good state.2)
        (⟨projection.kind, body, .created⟩, .collecting {}) rows) :
    (∃ error, (execute services settings [projection] rows job).1 = .error error ∧ excused error) ∨
      ∃ out, result = .ok out ∧ (execute services settings [projection] rows job).1 = .ok out := by
  obtain ⟨after, same⟩ := execute_compiled (Projection.compileAll_single compiled) rows
  rw [same]
  have single := @delivers (fun terminal => ∃ emitted, result = .ok emitted ∧
    terminal.result = .ok emitted) fun emitted here =>
      (Terminal.delivers [] emitted).weaken fun _ whole => ⟨emitted, here, whole⟩
  let stages : List Stage := [⟨projection.kind, body, .created⟩]
  have chained : (Chain.receiver services stages.length).Delivers excused
      (fun chain => ∃ emitted, result = .ok emitted ∧
        (Chain.terminal stages.length chain).result = .ok emitted)
      (Chain.ofStages (.collecting {}) stages) rows := single
  exact runStages_delivers chained after

private theorem result_of_execute {body : StageBody} {result : Except EvaluationFault (List Row)}
    (compiled : projection.compileBody services settings job = .ok body)
    (delivers : ∀ {good : Terminal → Prop},
      (∀ emitted, result = .ok emitted → (Terminal.receiver : Receiver σ Terminal).Delivers
        (fun _ => True) good (.collecting {}) emitted) →
      (Stage.receiver services Terminal.receiver).Delivers (fun _ => True) (fun state => good state.2)
        (⟨projection.kind, body, .created⟩, .collecting {}) rows)
    (done : (execute services settings [projection] rows job).1 = .ok out) : result = .ok out := by
  rcases outcome_of_execute compiled delivers with ⟨error, failed, _⟩ | ⟨emitted, here, whole⟩
  · rw [failed] at done
    cases done
  · rw [here, Except.ok.inj (done.symm.trans whole)]

theorem execute_group {keys : List Symbol} {calls : List AggregateCall} {mode : AggregateMode}
    (done : (execute services settings [.group keys calls mode] rows job).1 = .ok out) :
    ∃ groups, AggregateCall.Groups keys calls mode rows groups ∧
      out = groups.map (KeyGroup.row mode) := by
  obtain ⟨body, compiled⟩ := compileBody_of_execute done
  obtain ⟨expressions, compiledKeys, same⟩ := ok_of_bind compiled
  obtain ⟨aggregates, compiledCalls, same⟩ := ok_of_bind same
  obtain rfl := Except.ok.inj same
  have emitted := result_of_execute compiled (Stage.delivers_group (fun _ _ => trivial)
    (fun _ _ => trivial) rfl rfl rfl) done
  cases folded : rows.foldlM (GroupStage.stepRow expressions aggregates) [] with
  | error fault =>
    rw [folded] at emitted
    cases emitted
  | ok groups =>
    rw [folded] at emitted
    obtain ⟨meaning, same⟩ := GroupStage.groups_of_foldlM compiledCalls compiledKeys folded
    exact ⟨_, meaning, (Except.ok.inj emitted).symm.trans same⟩

/-- An aggregation that succeeds emits what its calls come to on the rows. -/
theorem execute_aggregation {calls : List AggregateCall} {mode : AggregateMode}
    (done : (execute services settings [.aggregation calls mode] rows job).1 = .ok out) :
    ∃ states, (calls.mapM fun call => call.fold mode rows) = .ok states ∧
      out = [states.map (AggregateCall.resultOf mode)] := by
  obtain ⟨body, compiled⟩ := compileBody_of_execute done
  obtain ⟨aggregates, compiledCalls, same⟩ := ok_of_bind compiled
  obtain rfl := Except.ok.inj same
  have emitted := result_of_execute compiled (Stage.delivers_aggregate (fun _ _ => trivial) rfl rfl rfl)
    done
  cases folded : Aggregate.foldAll rows (Aggregate.initialAll aggregates) with
  | error fault =>
    rw [folded] at emitted
    cases emitted
  | ok finals =>
    rw [folded] at emitted
    obtain ⟨states, folds, rfl⟩ := (Aggregate.foldAll_of_compileAll compiledCalls).mp folded
    refine ⟨states, folds, (Except.ok.inj emitted).symm.trans ?_⟩
    exact congrArg ([·]) (Aggregate.terminateAll_zip compiledCalls (length_of_mapM folds))

end Plan

end RowPipeline
