import Mathlib.Algebra.GroupWithZero.Nat
import RowPipeline.Proofs.GroupMeaning
import RowPipeline.Proofs.PartialRows

/-!
Grouping partitions the rows. If the keys and the calls can be evaluated, one row is emitted for each
class of rows with the same key, and every row is counted in the class of its key.
-/

namespace RowPipeline

/-! ### Groupings that succeed -/

namespace RowGroup

variable {keys : List Expression} {calls : List AggregateCall} {aggregates : List Aggregate}
variable {mode : AggregateMode} {row own : Row} {rest : List Row} {states : List AggregateState}

/-- Rows whose first one has a key, and on which the calls come to something, make a group. -/
theorem foldlM_of_folds (compiled : Aggregate.compileAll mode calls = .ok aggregates)
    (evaluated : Expression.evaluateAll keys row = .ok own)
    (folds : (calls.mapM fun call => call.fold mode (row :: rest)) = .ok states) :
    ∃ found, (row :: rest).foldlM (advance keys aggregates) none = .ok found := by
  have whole := (Aggregate.foldAll_of_compileAll compiled).mpr ⟨states, folds, rfl⟩
  rw [Aggregate.foldAll, List.foldlM_cons] at whole
  obtain ⟨middle, advanced, later⟩ := ok_of_bind whole
  have taken : advance keys aggregates none row = .ok (some ⟨own, middle⟩) :=
    advance_of_evaluateAll evaluated advanced
  refine ⟨some ⟨own, aggregates.zip states⟩, ?_⟩
  rw [List.foldlM_cons, taken]
  change rest.foldlM (advance keys aggregates) (some ⟨own, middle⟩) = _
  rw [foldlM_some, Aggregate.foldAll, later]
  rfl

end RowGroup

namespace GroupStage

variable {symbols : List Symbol} {keys : List Expression} {aggregates : List Aggregate}
variable {groups : List RowGroup} {own row : Row}

private theorem stepGroup_of_lookup {group : RowGroup} {states : List (Aggregate × AggregateState)}
    (found : lookup groups own = some group)
    (advanced : group.states.mapM (Aggregate.advance row) = .ok states) :
    ∃ after, stepGroup own row groups = (after, none) := by
  induction groups with
  | nil => cases found
  | cons first rest ih =>
    rw [stepGroup]
    cases here : first.key.same own with
    | true =>
      obtain rfl : first = group := by simpa [lookup, here] using found
      rw [Aggregate.stepAll_eq] at advanced
      rcases stepped : Aggregate.stepAll row first.states with ⟨after, _ | fault⟩
      · exact ⟨_, rfl⟩
      · rw [stepped] at advanced
        cases advanced
    | false =>
      rw [lookup, List.find?_cons, here] at found
      obtain ⟨after, stepped⟩ := ih found
      rw [stepped]
      exact ⟨_, rfl⟩

private theorem stepRow_of_advance {moved : Option RowGroup}
    (evaluated : Expression.evaluateAll keys row = .ok own)
    (advanced : RowGroup.advance keys aggregates (lookup groups own) row = .ok moved) :
    ∃ after, stepRow keys aggregates groups row = .ok after := by
  obtain ⟨group, opened, advanced⟩ := ok_of_bind advanced
  obtain ⟨states, advanced, _⟩ := ok_of_bind advanced
  have present : lookup (ensured aggregates own groups) own = some group := by
    rw [lookup_ensured (Row.same_refl own)]
    cases found : lookup groups own with
    | none =>
      rw [found, RowGroup.opened, evaluated] at opened
      exact congrArg some (Except.ok.inj opened)
    | some known =>
      rw [found] at opened
      exact congrArg some (Except.ok.inj opened)
  obtain ⟨after, stepped⟩ := stepGroup_of_lookup present advanced
  rw [stepRow_of_evaluateAll evaluated, stepped]
  exact ⟨after, rfl⟩

private theorem foldlM_of_classes (compiled : Expression.compileAll symbols = .ok keys) {rows : List Row}
    (evaluated : ∀ row ∈ rows, ∃ own, Symbol.evaluateAll row symbols = .ok own)
    (classes : ∀ key, ∃ found, (rows.filter (AggregateCall.hasKey symbols key)).foldlM
      (RowGroup.advance keys aggregates) (lookup groups key) = .ok found) :
    ∃ after, rows.foldlM (stepRow keys aggregates) groups = .ok after := by
  induction rows generalizing groups with
  | nil => exact ⟨groups, rfl⟩
  | cons row rest ih =>
    obtain ⟨own, known⟩ := evaluated row List.mem_cons_self
    -- The row is the first of its own class, which takes it.
    have head : AggregateCall.hasKey symbols own row = true := by
      rw [AggregateCall.hasKey, known]
      exact Row.same_refl own
    obtain ⟨found, taken⟩ := classes own
    rw [List.filter_cons_of_pos head, List.foldlM_cons] at taken
    obtain ⟨moved, advanced, _⟩ := ok_of_bind taken
    rw [← Expression.evaluateAll_of_compileAll compiled] at known
    obtain ⟨middle, stepped⟩ := stepRow_of_advance known advanced
    have later : ∀ key, ∃ found, (rest.filter (AggregateCall.hasKey symbols key)).foldlM
        (RowGroup.advance keys aggregates) (lookup middle key) = .ok found := by
      intro key
      obtain ⟨found, taken⟩ := classes key
      have step := lookup_stepRow compiled stepped key
      rw [List.filter_cons] at taken
      split at step
      · next here =>
        rw [if_pos here, List.foldlM_cons, step] at taken
        exact ⟨found, taken⟩
      · next other =>
        rw [if_neg other, Except.ok.inj step] at taken
        exact ⟨found, taken⟩
    obtain ⟨after, folded⟩ := ih (fun row member => evaluated row (List.mem_cons_of_mem _ member)) later
    rw [List.foldlM_cons, stepped]
    exact ⟨after, folded⟩

end GroupStage

/-! ### Classes of rows -/

namespace AggregateCall

variable {keys : List Symbol} {calls : List AggregateCall} {mode : AggregateMode}
variable {rows out : List Row} {groups : List KeyGroup} {own key row : Row}

theorem hasKey_of_evaluateAll (evaluated : Symbol.evaluateAll row keys = .ok own) (key : Row) :
    hasKey keys key row = own.same key := by
  rw [hasKey, evaluated]

private theorem hasKey_congr (same : own.same key = true) : hasKey keys own = hasKey keys key := by
  funext row
  unfold hasKey
  cases Symbol.evaluateAll row keys with
  | error => rfl
  | ok other =>
    change Row.same other own = Row.same other key
    rw [Row.same_comm, Row.same_congr same, Row.same_comm]

/-- One row is emitted for each class of rows with the same key: the key of the first row of the class,
then what each call comes to on the rows of the class, in the order in which they came. -/
structure Partitions (keys : List Symbol) (calls : List AggregateCall) (mode : AggregateMode)
    (rows out : List Row) : Prop where
  distinct : Row.Distinct (out.map (·.take keys.length))
  covers : ∀ row ∈ rows, ∃ emitted ∈ out, hasKey keys (emitted.take keys.length) row = true
  emits : ∀ emitted ∈ out, ∃ first rest states,
    rows.filter (hasKey keys (emitted.take keys.length)) = first :: rest ∧
      Symbol.evaluateAll first keys = .ok (emitted.take keys.length) ∧
      (calls.mapM fun call => call.fold mode (first :: rest)) = .ok states ∧
      emitted = emitted.take keys.length ++ states.map (resultOf mode)

theorem Groups.partitions (meaning : Groups keys calls mode rows groups)
    (evaluated : ∀ row ∈ rows, ∃ own, Symbol.evaluateAll row keys = .ok own) :
    Partitions keys calls mode rows (groups.map (KeyGroup.row mode)) := by
  have key : ∀ group ∈ groups, (group.row mode).take keys.length = group.key := by
    intro group member
    obtain ⟨_, _, _, known, _⟩ := rows_of_groupOf_some (meaning.groupOf_eq member)
    exact List.take_left' (Symbol.length_of_evaluateAll known)
  constructor
  · have keysOf : (groups.map (KeyGroup.row mode)).map (·.take keys.length) = groups.map (·.key) := by
      rw [List.map_map]
      exact List.map_congr_left key
    rw [keysOf]
    exact meaning.distinct
  · intro row member
    obtain ⟨own, known⟩ := evaluated row member
    have here : hasKey keys own row = true := by
      rw [hasKey_of_evaluateAll known, Row.same_refl]
    cases found : groups.find? fun group => group.key.same own with
    | none =>
      have empty := rows_of_groupOf_none (found ▸ meaning.group own)
      exact absurd here (List.filter_eq_nil_iff.mp empty row member)
    | some group =>
      have present := List.mem_of_find?_eq_some found
      have same : group.key.same own = true := by simpa using List.find?_some found
      refine ⟨_, List.mem_map_of_mem present, ?_⟩
      rw [key group present, hasKey_congr same, here]
  · intro emitted member
    obtain ⟨group, present, rfl⟩ := List.mem_map.mp member
    obtain ⟨first, rest, filtered, known, folds⟩ := rows_of_groupOf_some (meaning.groupOf_eq present)
    rw [key group present]
    exact ⟨first, rest, group.states, filtered, known, folds, rfl⟩

/-! ### Counting rows -/

private theorem sum_countP_cons {α β : Type} (holds : α → β → Bool) (items : List α) (row : β)
    (rows : List β) :
    (items.map fun item => (row :: rows).countP (holds item)).sum =
      (items.map fun item => rows.countP (holds item)).sum + items.countP (holds · row) := by
  induction items with
  | nil => rfl
  | cons item rest ih =>
    rw [List.map_cons, List.sum_cons, ih, List.countP_cons, List.map_cons, List.sum_cons,
      List.countP_cons]
    omega

/-- If one class holds each row, the sizes of the classes add up to the number of rows. -/
theorem sum_countP {α β : Type} {holds : α → β → Bool} {items : List α} {rows : List β}
    (once : ∀ row ∈ rows, items.countP (holds · row) = 1) :
    (items.map fun item => rows.countP (holds item)).sum = rows.length := by
  induction rows with
  | nil => simp
  | cons row rest ih =>
    rw [sum_countP_cons, ih fun row member => once row (List.mem_cons_of_mem _ member),
      once row List.mem_cons_self, List.length_cons]

private theorem fold_countStar {inputs : List Symbol} {state : AggregateState}
    (folded : fold ⟨.countStar, inputs⟩ .iterFinal rows = .ok state) :
    state = .count (.ofNat rows.length) := by
  suffices counted : ∀ total, rows.foldlM (step ⟨.countStar, inputs⟩ .iterFinal) (.count total) =
      .ok state → state = .count (total + .ofNat rows.length) by
    have := counted 0 folded
    rwa [Int64.zero_add] at this
  clear folded
  induction rows with
  | nil =>
    intro total folded
    obtain rfl := Except.ok.inj folded
    rw [List.length_nil]
    exact congrArg AggregateState.count (Int64.add_zero total).symm
  | cons row rest ih =>
    intro total folded
    rw [List.foldlM_cons] at folded
    obtain ⟨middle, stepped, folded⟩ := ok_of_bind folded
    obtain ⟨_, _, iterated⟩ := iterate_of_step rfl stepped
    obtain ⟨rfl, _⟩ := AggregateState.eq_of_tally iterated
    rw [ih _ folded, List.length_cons, Int64.ofNat_add, Int64.add_assoc, Int64.add_comm 1]
    rfl

namespace Partitions

variable (partitions : Partitions keys calls mode rows out)
include partitions

private theorem countP_eq_one (evaluated : Symbol.evaluateAll row keys = .ok own) (member : row ∈ rows) :
    out.countP (fun emitted => hasKey keys (emitted.take keys.length) row) = 1 := by
  have same : (fun emitted : Row => hasKey keys (emitted.take keys.length) row) =
      fun emitted => Row.same (emitted.take keys.length) own := by
    funext emitted
    rw [hasKey_of_evaluateAll evaluated, Row.same_comm]
  obtain ⟨emitted, present, here⟩ := partitions.covers row member
  rw [show hasKey keys (emitted.take keys.length) row = _ from congrFun same emitted] at here
  rw [same, List.countP_eq_length_filter, partitions.distinct.filter_eq own]
  cases found : out.find? fun emitted => Row.same (emitted.take keys.length) own with
  | none => exact absurd here (List.find?_eq_none.mp found emitted present)
  | some first => rfl

/-- The cells of `count(*)` are the sizes of the classes. -/
theorem cell_countStar {position : Nat} {inputs : List Symbol} (final : mode = .iterFinal)
    (given : calls[position]? = some ⟨.countStar, inputs⟩) (member : row ∈ out) :
    row[keys.length + position]? =
      some (.long (.ofNat (rows.countP (hasKey keys (row.take keys.length))))) := by
  obtain ⟨first, rest, states, filtered, known, folds, whole⟩ := partitions.emits row member
  obtain ⟨lengths, each⟩ := mapM_eq_ok_iff.mp folds
  obtain ⟨bound, call⟩ := List.getElem?_eq_some_iff.mp given
  have counted := each position bound (lengths ▸ bound)
  rw [call, final] at counted
  have cell : states[position]? = some (.count (.ofNat (first :: rest).length)) :=
    List.getElem?_eq_some_iff.mpr ⟨lengths ▸ bound, fold_countStar counted⟩
  have width := Symbol.length_of_evaluateAll known
  rw [List.countP_eq_length_filter, filtered, whole, List.getElem?_append_right (by omega), width,
    Nat.add_sub_cancel_left, List.getElem?_map, cell, final]
  rfl

theorem counts (evaluated : ∀ row ∈ rows, ∃ own, Symbol.evaluateAll row keys = .ok own)
    {position : Nat} {inputs : List Symbol} (final : mode = .iterFinal)
    (given : calls[position]? = some ⟨.countStar, inputs⟩) :
    ∃ counts : List Nat,
      out.map (·[keys.length + position]?) =
          counts.map (fun count => some (.long (.ofNat count))) ∧
        counts.sum = rows.length := by
  refine ⟨out.map fun emitted => rows.countP (hasKey keys (emitted.take keys.length)), ?_, ?_⟩
  · rw [List.map_map]
    exact List.map_congr_left fun emitted member =>
      partitions.cell_countStar final given member
  · refine sum_countP fun row member => ?_
    obtain ⟨own, known⟩ := evaluated row member
    exact partitions.countP_eq_one known member

end Partitions

/-- The keys of each row can be evaluated, and so can the calls on the rows that have the same key. -/
def Evaluates (keys : List Symbol) (calls : List AggregateCall) (mode : AggregateMode)
    (rows : List Row) : Prop :=
  ∀ row ∈ rows, ∃ key states, Symbol.evaluateAll row keys = .ok key ∧
    (calls.mapM fun call => call.fold mode (rows.filter (hasKey keys key))) = .ok states

theorem Evaluates.evaluateAll (evaluates : Evaluates keys calls mode rows) :
    ∀ row ∈ rows, ∃ own, Symbol.evaluateAll row keys = .ok own := by
  intro row member
  obtain ⟨own, _, known, _⟩ := evaluates row member
  exact ⟨own, known⟩

end AggregateCall

/-! ### Groupings of plans -/

namespace GroupStage

variable {symbols : List Symbol} {keys : List Expression} {calls : List AggregateCall}
variable {aggregates : List Aggregate} {mode : AggregateMode} {rows : List Row}

/-- Rows are taken if their keys, and the calls on the rows of each key, can be evaluated. -/
theorem foldlM_of_evaluates (compiled : Aggregate.compileAll mode calls = .ok aggregates)
    (compiledKeys : Expression.compileAll symbols = .ok keys)
    (evaluates : AggregateCall.Evaluates symbols calls mode rows) :
    ∃ groups, rows.foldlM (stepRow keys aggregates) [] = .ok groups := by
  refine foldlM_of_classes compiledKeys evaluates.evaluateAll fun key => ?_
  cases filtered : rows.filter (AggregateCall.hasKey symbols key) with
  | nil => exact ⟨none, rfl⟩
  | cons first rest =>
    obtain ⟨member, here⟩ := List.mem_filter.mp (filtered ▸ List.mem_cons_self : first ∈ _)
    obtain ⟨own, states, known, folds⟩ := evaluates first member
    -- The rows with the key are those with the cells that the first of them has for it.
    rw [AggregateCall.hasKey_of_evaluateAll known] at here
    rw [AggregateCall.hasKey_congr here, filtered] at folds
    rw [← Expression.evaluateAll_of_compileAll compiledKeys] at known
    exact RowGroup.foldlM_of_folds compiled known folds

end GroupStage

namespace Plan

open ExecutionError

variable {σ : Type}

/-- A grouping emits one row for each class of rows with the same key, unless the memory of the job is
refused. No two of the rows that it emits have the same key, and the cells of `count(*)` add up to the
number of rows. -/
theorem execute_partitions (services : Services σ) (settings : Settings) (keys : List Symbol)
    (calls : List AggregateCall) (mode : AggregateMode) (rows : List Row) (job : Job σ)
    (stages : List Stage)
    (compiled : (Projection.compileAll services settings [.group keys calls mode] job).1 = .ok stages)
    (evaluates : AggregateCall.Evaluates keys calls mode rows)
    (granted : MemoryGranted (execute services settings [.group keys calls mode] rows job).1) :
    ∃ out, (execute services settings [.group keys calls mode] rows job).1 = .ok out ∧
      AggregateCall.Partitions keys calls mode rows out ∧
      ∀ position inputs, mode = .iterFinal → calls[position]? = some ⟨.countStar, inputs⟩ →
        ∃ counts : List Nat,
          out.map (·[keys.length + position]?) =
              counts.map (fun count => some (.long (.ofNat count))) ∧
            counts.sum = rows.length := by
  obtain ⟨body, compiledBody⟩ := Projection.compileBody_single compiled
  obtain ⟨expressions, compiledKeys, same⟩ := ok_of_bind compiledBody
  obtain ⟨aggregates, compiledCalls, same⟩ := ok_of_bind same
  obtain rfl := Except.ok.inj same
  obtain ⟨groups, folded⟩ := GroupStage.foldlM_of_evaluates compiledCalls compiledKeys evaluates
  obtain ⟨meaning, shown⟩ := GroupStage.groups_of_foldlM compiledCalls compiledKeys folded
  have partitions := shown ▸ meaning.partitions evaluates.evaluateAll
  have outcome := outcome_of_execute compiledBody (Stage.delivers_group
    (fun _ refused => refused) (fun _ failed => by rw [folded] at failed; cases failed) rfl rfl rfl)
  rcases outcome with ⟨error, failed, refused⟩ | ⟨out, emitted, done⟩
  · exact absurd refused (granted error failed)
  · rw [folded] at emitted
    obtain rfl := Except.ok.inj emitted
    exact ⟨_, done, partitions, fun position inputs final given =>
      partitions.counts evaluates.evaluateAll final given⟩

/-- The integer `1` and the double, two NaNs, and zeros of three kinds are the same in arrays and in
objects: five rows with two keys. -/
theorem execute_partitions_nested :
    let keys : List Symbol := [.input 0]
    let calls : List AggregateCall := [⟨.sum, [.input 1]⟩, ⟨.countStar, []⟩]
    let first : Value := .array [.long 1, .double ⟨0x7ff8000000000000⟩]
    let other : Value := .object [("a", .double ⟨0x8000000000000000⟩)]
    let rows : List Row :=
      [[first, .long 5], [other, .null],
        [.array [.double ⟨0x3ff0000000000000⟩, .double ⟨0xfff0000000000001⟩], .long 7],
        [.object [("a", .long 0)], .long 2], [.object [("a", .double ⟨0⟩)], .long 3]]
    let out : List Row := [[first, .long 12, .long 2], [other, .long 5, .long 3]]
    AggregateCall.Evaluates keys calls .iterFinal rows ∧
      (execute Simulation.services {} [.group keys calls .iterFinal] rows Job.alone).1 = .ok out ∧
        AggregateCall.Partitions keys calls .iterFinal rows out ∧
          ∃ counts : List Nat,
            out.map (·[2]?) = counts.map (fun count => some (.long (.ofNat count))) ∧
              counts.sum = 5 := by
  intro keys calls first other rows out
  have evaluates : AggregateCall.Evaluates keys calls .iterFinal rows := by
    intro row member
    simp only [rows, List.mem_cons, List.not_mem_nil, or_false] at member
    let states : List AggregateState := [.sum (some (.long 12)), .count 2]
    let others : List AggregateState := [.sum (some (.long 5)), .count 3]
    rcases member with rfl | rfl | rfl | rfl | rfl
    · exact ⟨_, states, rfl, by decide +kernel⟩
    · exact ⟨_, others, rfl, by decide +kernel⟩
    · exact ⟨_, states, rfl, by decide +kernel⟩
    · exact ⟨_, others, rfl, by decide +kernel⟩
    · exact ⟨_, others, rfl, by decide +kernel⟩
  have done : (execute Simulation.services {} [.group keys calls .iterFinal] rows Job.alone).1 =
    .ok out := by decide +kernel
  obtain ⟨emitted, same, partitions, counts⟩ := execute_partitions Simulation.services {} keys calls
    .iterFinal rows Job.alone _ rfl evaluates (.of_ok done)
  obtain rfl : out = emitted := Except.ok.inj (done.symm.trans same)
  exact ⟨evaluates, done, partitions, counts 1 [] rfl rfl⟩

end Plan

end RowPipeline
