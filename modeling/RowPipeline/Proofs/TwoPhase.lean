import RowPipeline.Proofs.GroupMeaning
import RowPipeline.Proofs.PartialRows

/-!
Aggregation in two phases. Shards group their rows on their own, and what they emit is grouped once
more by the same keys; this comes to the groups of all rows at once, however the rows are spread over
the shards and in whatever order a shard emits its groups.
-/

namespace RowPipeline

namespace Symbol

/-- The columns of a beginning of a row. -/
def firstColumns (count : Nat) : List Symbol := (List.range count).map .input

private theorem evaluateAll_inputs (before cells after : Row) :
    evaluateAll (before ++ cells ++ after) ((List.range' before.length cells.length).map .input) =
      .ok cells := by
  induction cells generalizing before with
  | nil => rfl
  | cons cell rest ih =>
    have later := ih (before ++ [cell])
    rw [List.length_append, List.length_singleton, List.append_assoc before [cell] rest,
      List.singleton_append] at later
    rw [List.length_cons, List.range'_succ, List.map_cons, evaluateAll, later, evaluate]
    simp

private theorem evaluateAll_firstColumns (cells after : Row) :
    evaluateAll (cells ++ after) (firstColumns cells.length) = .ok cells := by
  have columns := evaluateAll_inputs [] cells after
  rw [List.nil_append, List.length_nil, ← List.range_eq_range'] at columns
  exact columns

end Symbol

/-! ### Groups of shards -/

namespace AggregateCall

variable {keys : List Symbol} {calls : List AggregateCall} {mode : AggregateMode}
variable {key : Row} {rows : List Row} {group : KeyGroup} {groups : List KeyGroup}

namespace Groups

private theorem evaluateAll_row (meaning : Groups keys calls mode rows groups) (member : group ∈ groups) :
    Symbol.evaluateAll (group.row mode) (Symbol.firstColumns keys.length) = .ok group.key := by
  obtain ⟨first, rest, _, evaluated, _⟩ := rows_of_groupOf_some (meaning.groupOf_eq member)
  rw [← Symbol.length_of_evaluateAll evaluated]
  exact Symbol.evaluateAll_firstColumns _ _

private theorem evaluate_row (meaning : Groups keys calls mode rows groups) (member : group ∈ groups)
    {position : Nat} (bound : position < group.states.length) :
    (Symbol.input (keys.length + position)).evaluate (group.row mode) =
      .ok (resultOf mode group.states[position]) := by
  obtain ⟨first, rest, _, evaluated, _⟩ := rows_of_groupOf_some (meaning.groupOf_eq member)
  rw [← Symbol.length_of_evaluateAll evaluated, Symbol.evaluate, KeyGroup.row]
  simp [bound]

/-- Of the rows of the groups, in whatever order, only that of its group has a key. -/
theorem filter_rows (meaning : Groups keys calls mode rows groups) {emitted : List Row}
    (order : emitted.Perm (groups.map (KeyGroup.row mode))) (key : Row) :
    emitted.filter (hasKey (Symbol.firstColumns keys.length) key) =
      ((groups.find? (·.key.same key)).map (KeyGroup.row mode)).toList := by
  have filtered := order.filter (hasKey (Symbol.firstColumns keys.length) key)
  have own : groups.filter (hasKey (Symbol.firstColumns keys.length) key ∘ KeyGroup.row mode) =
      groups.filter (·.key.same key) := by
    refine List.filter_congr fun group member => ?_
    simp only [Function.comp_apply, hasKey, meaning.evaluateAll_row member]
  rw [List.filter_map, own, meaning.distinct.filter_eq] at filtered
  cases found : groups.find? (·.key.same key) with
  | none =>
    rw [found] at filtered
    exact filtered.eq_nil
  | some group =>
    rw [found] at filtered
    exact List.perm_singleton.mp filtered

end Groups

end AggregateCall

/-! ### Merging groups -/

namespace ShardResult

open AggregateCall

variable {keys : List Symbol} {calls : List AggregateCall} {shard : ShardResult} {key : Row}

/-- A shard gives the rows of its groups, in any order. -/
def GroupsBy (keys : List Symbol) (calls : List AggregateCall) (shard : ShardResult) : Prop :=
  ∃ groups, Groups keys calls .iterPartial shard.rows groups ∧
    shard.partials.Perm (groups.map (KeyGroup.row .iterPartial))

/-- The rows of a shard that have a key, and the partial rows that have it in their first columns. -/
def ofKey (keys : List Symbol) (key : Row) (shard : ShardResult) : ShardResult :=
  ⟨shard.rows.filter (hasKey keys key),
    shard.partials.filter (hasKey (Symbol.firstColumns keys.length) key)⟩

private theorem GroupsBy.ofKey_cases (grouped : shard.GroupsBy keys calls) (key : Row) :
    shard.ofKey keys key = ⟨[], []⟩ ∨
      ∃ first rest groups group, Groups keys calls .iterPartial shard.rows groups ∧
        group ∈ groups ∧
        shard.ofKey keys key = ⟨first :: rest, [group.row .iterPartial]⟩ ∧
        Symbol.evaluateAll first keys = .ok group.key ∧
        (calls.mapM fun call => call.fold .iterPartial (first :: rest)) = .ok group.states := by
  obtain ⟨groups, meaning, order⟩ := grouped
  have partials := meaning.filter_rows order key
  have own := meaning.group key
  cases found : groups.find? (·.key.same key) with
  | none =>
    rw [found] at partials own
    refine .inl ?_
    rw [ofKey, partials, rows_of_groupOf_none own]
    rfl
  | some group =>
    rw [found] at partials own
    obtain ⟨first, rest, rows, evaluated, folds⟩ := rows_of_groupOf_some own
    refine .inr ⟨first, rest, groups, group, meaning, List.mem_of_find?_eq_some found, ?_, evaluated,
      folds⟩
    rw [ofKey, partials, rows]
    rfl

/-- The first row of a key has the cells that the partial row gives. -/
theorem GroupsBy.heads_ofKey (grouped : shard.GroupsBy keys calls) (key : Row) :
    (shard.ofKey keys key).rows.head?.map (Symbol.evaluateAll · keys) =
      (shard.ofKey keys key).partials.head?.map
        (Symbol.evaluateAll · (Symbol.firstColumns keys.length)) := by
  rcases grouped.ofKey_cases key with none | ⟨first, rest, groups, group, meaning, member, one, own, _⟩
  · rw [none]
    rfl
  · rw [one]
    simp only [List.head?_cons, Option.map_some, own, meaning.evaluateAll_row member]

theorem GroupsBy.standsFor_ofKey (grouped : shard.GroupsBy keys calls) (key : Row) (position : Nat)
    (bound : position < calls.length) :
    calls[position].StandsFor (keys.length + position) (shard.ofKey keys key) := by
  rcases grouped.ofKey_cases key with none | ⟨first, rest, groups, group, meaning, member, one, _, folds⟩
  · rw [none]
    exact .none
  · rw [one]
    obtain ⟨lengths, folds⟩ := mapM_eq_ok_iff.mp folds
    have bound' : position < group.states.length := lengths ▸ bound
    exact .one (folds position bound bound') (meaning.evaluate_row member bound')

private theorem rows_ofKey (shards : List ShardResult) :
    (shards.flatMap (·.rows)).filter (hasKey keys key) =
      (shards.map (ofKey keys key)).flatMap (·.rows) := by
  rw [List.filter_flatMap, List.flatMap_map]
  rfl

private theorem partials_ofKey (shards : List ShardResult) :
    (shards.flatMap (·.partials)).filter (hasKey (Symbol.firstColumns keys.length) key) =
      (shards.map (ofKey keys key)).flatMap (·.partials) := by
  rw [List.filter_flatMap, List.flatMap_map]
  rfl

private theorem heads_flatMap {shards : List ShardResult}
    (grouped : ∀ shard ∈ shards, shard.GroupsBy keys calls) (key : Row) :
    ((shards.map (ofKey keys key)).flatMap (·.rows)).head?.map (Symbol.evaluateAll · keys) =
      ((shards.map (ofKey keys key)).flatMap (·.partials)).head?.map
        (Symbol.evaluateAll · (Symbol.firstColumns keys.length)) := by
  induction shards with
  | nil => rfl
  | cons shard rest ih =>
    have first := (grouped shard List.mem_cons_self).heads_ofKey key
    have later := ih fun shard member => grouped shard (List.mem_cons_of_mem _ member)
    rw [List.map_cons, List.flatMap_cons, List.flatMap_cons, List.head?_append, List.head?_append,
      Option.map_or, Option.map_or, first, later]

end ShardResult

namespace AggregateCall

variable {keys : List Symbol} {calls : List AggregateCall} {shards : List ShardResult}

/-- Grouping the partial rows gives each key the group that it has of all rows. -/
theorem groupOf_merging (mergeable : ∀ call ∈ calls, call.function ≠ .avg)
    (integers : ∀ shard ∈ shards, ∀ row ∈ shard.rows, ∀ call ∈ calls, call.AddsIntegers row)
    (grouped : ∀ shard ∈ shards, shard.GroupsBy keys calls) {key : Row} {group : Option KeyGroup}
    (whole : groupOf keys calls .iterFinal key (shards.flatMap (·.rows)) = .ok group) :
    groupOf (Symbol.firstColumns keys.length) (mergingAll calls keys.length) .partialFinal key
      (shards.flatMap (·.partials)) = .ok group := by
  -- A key has its first cells from the first shard that has it, in both phases.
  have heads := ShardResult.heads_flatMap grouped key
  rw [← ShardResult.rows_ofKey, ← ShardResult.partials_ofKey] at heads
  cases group with
  | none =>
    rw [rows_of_groupOf_none whole, List.head?_nil, Option.map_none] at heads
    rw [groupOf, List.head?_eq_none_iff.mp (Option.map_eq_none_iff.mp heads.symm)]
    rfl
  | some group =>
    obtain ⟨first, rest, filtered, evaluated, folds⟩ := rows_of_groupOf_some whole
    rw [filtered, List.head?_cons, Option.map_some, evaluated] at heads
    obtain ⟨first', found, evaluated'⟩ := Option.map_eq_some_iff.mp heads.symm
    obtain ⟨rest', filtered'⟩ := List.head?_eq_some_iff.mp found
    rw [← filtered, ShardResult.rows_ofKey] at folds
    have stand : ∀ shard ∈ shards.map (·.ofKey keys key), ∀ position (bound : position < calls.length),
        calls[position].StandsFor (keys.length + position) shard := by
      intro shard member
      obtain ⟨given, here, rfl⟩ := List.mem_map.mp member
      exact (grouped given here).standsFor_ofKey key
    have integers' : ∀ shard ∈ shards.map (·.ofKey keys key), ∀ row ∈ shard.rows, ∀ call ∈ calls,
        call.AddsIntegers row := by
      intro shard member row kept
      obtain ⟨given, here, rfl⟩ := List.mem_map.mp member
      exact integers given here row (List.mem_filter.mp kept).1
    have folds' := folds_mergingAll mergeable stand integers' folds
    rw [← ShardResult.partials_ofKey, filtered'] at folds'
    rw [groupOf, filtered']
    dsimp only
    rw [evaluated', folds']
    rfl

end AggregateCall

namespace Plan

open AggregateCall

/-- Some job with some services runs a plan on rows, and it emits others. -/
def Emits (plan : List Projection) (rows out : List Row) : Prop :=
  ∃ (σ : Type) (services : Services σ) (settings : Settings) (job : Job σ),
    (execute services settings plan rows job).1 = .ok out

/-- The row that a shard gives for all of its rows stands for them, however few they are. -/
theorem standsFor_of_execute {σ : Type} {services : Services σ} {settings : Settings} {job : Job σ}
    {calls : List AggregateCall} {rows out : List Row}
    (done : (execute services settings [.aggregation calls .iterPartial] rows job).1 = .ok out)
    (position : Nat) (bound : position < calls.length) :
    calls[position].StandsFor (0 + position) ⟨rows, out⟩ := by
  obtain ⟨states, folds, rfl⟩ := execute_aggregation done
  obtain ⟨lengths, each⟩ := mapM_eq_ok_iff.mp folds
  have bound' : position < states.length := lengths ▸ bound
  refine .one (each position bound bound') ?_
  rw [Symbol.evaluate]
  simp [bound', resultOf, AggregateMode.producesPartials]

/-- Aggregating in two phases comes to the same as aggregating all rows at once, with keys up to the
order of the groups. Sums must find integers; those of doubles depend on where rows are split. -/
theorem emits_twoPhase (keys : List Symbol) (calls : List AggregateCall) (shards : List ShardResult)
    (mergeable : ∀ call ∈ calls, call.function ≠ .avg)
    (integers : ∀ shard ∈ shards, ∀ row ∈ shard.rows, ∀ call ∈ calls, call.AddsIntegers row) :
    ((∀ shard ∈ shards, ∃ emitted, Emits [.group keys calls .iterPartial] shard.rows emitted ∧
          shard.partials.Perm emitted) →
        ∀ merged whole,
          Emits [.group (Symbol.firstColumns keys.length) (mergingAll calls keys.length) .partialFinal]
            (shards.flatMap (·.partials)) merged →
          Emits [.group keys calls .iterFinal] (shards.flatMap (·.rows)) whole →
          merged.Perm whole) ∧
      ((∀ shard ∈ shards, Emits [.aggregation calls .iterPartial] shard.rows shard.partials) →
        ∀ merged whole,
          Emits [.aggregation (mergingAll calls 0) .partialFinal] (shards.flatMap (·.partials)) merged →
          Emits [.aggregation calls .iterFinal] (shards.flatMap (·.rows)) whole → merged = whole) := by
  constructor
  · rintro shardwise merged whole ⟨_, _, _, _, twice⟩ ⟨_, _, _, _, once⟩
    have grouped : ∀ shard ∈ shards, shard.GroupsBy keys calls := by
      intro shard member
      obtain ⟨emitted, ⟨_, _, _, _, done⟩, order⟩ := shardwise shard member
      obtain ⟨groups, meaning, rfl⟩ := execute_group done
      exact ⟨groups, meaning, order⟩
    obtain ⟨mergedGroups, mergedMeaning, rfl⟩ := execute_group twice
    obtain ⟨wholeGroups, wholeMeaning, rfl⟩ := execute_group once
    have found : ∀ key, mergedGroups.find? (·.key.same key) = wholeGroups.find? (·.key.same key) := by
      intro key
      have same := groupOf_merging mergeable integers grouped (wholeMeaning.group key)
      exact Except.ok.inj ((mergedMeaning.group key).symm.trans same)
    exact (mergedMeaning.distinct.perm wholeMeaning.distinct found).map _
  · rintro shardwise merged whole ⟨_, _, _, _, twice⟩ ⟨_, _, _, _, once⟩
    have stand : ∀ shard ∈ shards, ∀ position (bound : position < calls.length),
        calls[position].StandsFor (0 + position) shard := by
      rintro ⟨rows, partials⟩ member
      obtain ⟨_, _, _, _, done⟩ := shardwise _ member
      exact standsFor_of_execute done
    obtain ⟨mergedStates, mergedFolds, rfl⟩ := execute_aggregation twice
    obtain ⟨wholeStates, wholeFolds, rfl⟩ := execute_aggregation once
    have same := folds_mergingAll mergeable stand integers wholeFolds
    rw [Except.ok.inj (mergedFolds.symm.trans same)]
    rfl

private theorem emits_alone {plan : List Projection} {rows out : List Row}
    (done : (execute Simulation.services {} plan rows Job.alone).1 = .ok out) : Emits plan rows out :=
  ⟨_, _, _, _, done⟩

/-- Three shards, one of them empty and one giving its groups in the other order. The key `1` of the
first shard and the key `1.0` of the last are one group, which has the cells that came first. -/
theorem emits_twoPhase_spread :
    let keys : List Symbol := [.input 0]
    let calls : List AggregateCall := [⟨.countStar, []⟩, ⟨.sum, [.input 1]⟩]
    let rows : List Row := [[.long 1, .long 5], [.text "a", .null]]
    let more : List Row := [[.text "a", .long 7], [.double ⟨0x3ff0000000000000⟩, .long 4]]
    let grouped : List ShardResult :=
      [⟨rows, [[.text "a", .long 1, .null], [.long 1, .long 1, .long 5]]⟩, ⟨[], []⟩,
        ⟨more, [[.text "a", .long 1, .long 7], [.double ⟨0x3ff0000000000000⟩, .long 1, .long 4]]⟩]
    let aggregated : List ShardResult :=
      [⟨rows, [[.long 2, .long 5]]⟩, ⟨[], [[.long 0, .null]]⟩, ⟨more, [[.long 2, .long 11]]⟩]
    let merged : List Row := [[.text "a", .long 2, .long 7], [.long 1, .long 2, .long 9]]
    let whole : List Row := [[.long 1, .long 2, .long 9], [.text "a", .long 2, .long 7]]
    (Emits [.group (Symbol.firstColumns 1) (mergingAll calls 1) .partialFinal]
          (grouped.flatMap (·.partials)) merged ∧
        Emits [.group keys calls .iterFinal] (grouped.flatMap (·.rows)) whole ∧ merged.Perm whole) ∧
      ∃ total,
        Emits [.aggregation (mergingAll calls 0) .partialFinal] (aggregated.flatMap (·.partials)) total ∧
          total = [[.long 4, .long 16]] := by
  intro keys calls rows more grouped aggregated merged whole
  have mergeable : ∀ call ∈ calls, call.function ≠ .avg := by decide
  have integers : ∀ row ∈ rows ++ more, ∀ call ∈ calls, call.AddsIntegers row := by
    intro row member call given sums input here value evaluated
    have column : input = .input 1 := by
      simp only [calls, List.mem_cons, List.not_mem_nil, or_false] at given
      rcases given with rfl | rfl <;> simp_all
    subst column
    simp only [rows, more, List.cons_append, List.nil_append, List.mem_cons, List.not_mem_nil,
      or_false] at member
    rcases member with rfl | rfl | rfl | rfl <;> obtain rfl := Except.ok.inj evaluated
    · exact .inr ⟨5, rfl⟩
    · exact .inl rfl
    · exact .inr ⟨7, rfl⟩
    · exact .inr ⟨4, rfl⟩
  have first : ∀ row ∈ rows, ∀ call ∈ calls, call.AddsIntegers row := fun row member =>
    integers row (List.mem_append_left more member)
  have last : ∀ row ∈ more, ∀ call ∈ calls, call.AddsIntegers row := fun row member =>
    integers row (List.mem_append_right rows member)
  have groups : ∀ shard ∈ grouped, ∃ emitted,
      Emits [.group keys calls .iterPartial] shard.rows emitted ∧ shard.partials.Perm emitted := by
    simp only [grouped, List.forall_mem_cons]
    exact ⟨⟨_, emits_alone (by decide +kernel), .swap _ _ _⟩, ⟨_, emits_alone rfl, .refl _⟩,
      ⟨_, emits_alone (by decide +kernel), .refl _⟩, List.forall_mem_nil _⟩
  have totals : ∀ shard ∈ aggregated,
      Emits [.aggregation calls .iterPartial] shard.rows shard.partials := by
    simp only [aggregated, List.forall_mem_cons]
    exact ⟨emits_alone rfl, emits_alone rfl, emits_alone rfl, List.forall_mem_nil _⟩
  have twice : Emits [.group (Symbol.firstColumns 1) (mergingAll calls 1) .partialFinal]
      (grouped.flatMap (·.partials)) merged := emits_alone (by decide +kernel)
  have once : Emits [.group keys calls .iterFinal] (grouped.flatMap (·.rows)) whole :=
    emits_alone (by decide +kernel)
  have total : Emits [.aggregation (mergingAll calls 0) .partialFinal] (aggregated.flatMap (·.partials))
      [[.long 4, .long 16]] := emits_alone rfl
  have total' : Emits [.aggregation calls .iterFinal] (aggregated.flatMap (·.rows))
      [[.long 4, .long 16]] := emits_alone rfl
  have spread : ∀ shard ∈ grouped, ∀ row ∈ shard.rows, ∀ call ∈ calls, call.AddsIntegers row := by
    simp only [grouped, List.forall_mem_cons]
    exact ⟨first, List.forall_mem_nil _, last, List.forall_mem_nil _⟩
  have spread' : ∀ shard ∈ aggregated, ∀ row ∈ shard.rows, ∀ call ∈ calls, call.AddsIntegers row := by
    simp only [aggregated, List.forall_mem_cons]
    exact ⟨first, List.forall_mem_nil _, last, List.forall_mem_nil _⟩
  have same := (emits_twoPhase keys calls grouped mergeable spread).1 groups merged whole twice once
  have same' := (emits_twoPhase keys calls aggregated mergeable spread').2 totals _ _ total total'
  exact ⟨⟨twice, once, same⟩, _, total, same'⟩

end Plan

end RowPipeline
