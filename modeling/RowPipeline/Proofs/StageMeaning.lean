import Mathlib.Data.List.Induction
import RowPipeline.Proofs.Delivery
import RowPipeline.Proofs.Fingerprints
import RowPipeline.Proofs.ListFunction
import RowPipeline.Proofs.StableSort
import RowPipeline.Proofs.Success

/-!
What compiled stages make of their rows. Each delivers what the list function of its projection says,
whatever is behind it.
-/

namespace RowPipeline

open Turn

variable {σ δ : Type} {services : Services σ} {next : Receiver σ δ}

/-! ### Expressions -/

namespace Expression

theorem symbol_of_compile {symbol : Symbol} {expression : Expression}
    (compiled : compile symbol = .ok expression) : expression.symbol = symbol := by
  unfold compile at compiled
  split at compiled
  · exact (Except.ok.inj compiled) ▸ rfl
  · cases compiled

private theorem symbols_of_compileAll {symbols : List Symbol} {expressions : List Expression}
    (compiled : compileAll symbols = .ok expressions) : expressions.map (·.symbol) = symbols := by
  induction symbols generalizing expressions with
  | nil =>
    obtain rfl : [] = expressions := Except.ok.inj compiled
    rfl
  | cons symbol rest ih =>
    rw [compileAll, List.mapM_cons] at compiled
    obtain ⟨first, head, compiled⟩ := ok_of_bind compiled
    obtain ⟨others, tail, compiled⟩ := ok_of_bind compiled
    obtain rfl : first :: others = expressions := Except.ok.inj compiled
    rw [List.map_cons, symbol_of_compile head, ih tail]

private theorem evaluateAll_symbols (expressions : List Expression) (row : Row) :
    evaluateAll expressions row = Symbol.evaluateAll row (expressions.map (·.symbol)) := by
  induction expressions with
  | nil => rfl
  | cons first rest ih =>
    rw [evaluateAll, List.mapM_cons]
    rw [evaluateAll] at ih
    rw [ih, List.map_cons, Symbol.evaluateAll, evaluate]
    cases first.symbol.evaluate row with
    | error => rfl
    | ok value => cases Symbol.evaluateAll row (rest.map (·.symbol)) <;> rfl

/-- Compiled expressions have the values of the symbols they were compiled from. -/
theorem evaluateAll_of_compileAll {symbols : List Symbol} {expressions : List Expression}
    (compiled : compileAll symbols = .ok expressions) (row : Row) :
    evaluateAll expressions row = Symbol.evaluateAll row symbols := by
  rw [evaluateAll_symbols, symbols_of_compileAll compiled]

end Expression

theorem Symbol.evaluateAll_append (row : Row) (first second : List Symbol) :
    evaluateAll row (first ++ second) = (do
      let values ← evaluateAll row first
      let others ← evaluateAll row second
      return values ++ others) := by
  induction first with
  | nil =>
    rw [List.nil_append, evaluateAll]
    cases evaluateAll row second <;> rfl
  | cons symbol rest ih =>
    rw [List.cons_append, evaluateAll, evaluateAll, ih]
    cases evaluate row symbol with
    | error => rfl
    | ok value =>
      cases evaluateAll row rest with
      | error => rfl
      | ok values => cases evaluateAll row second <;> rfl

theorem Symbol.length_of_evaluateAll {row : Row} {symbols : List Symbol} {values : List Value}
    (evaluated : evaluateAll row symbols = .ok values) : values.length = symbols.length := by
  induction symbols generalizing values with
  | nil =>
    obtain rfl := Except.ok.inj evaluated
    rfl
  | cons symbol rest ih =>
    rw [evaluateAll] at evaluated
    split at evaluated
    · split at evaluated
      · next tail =>
        obtain rfl := Except.ok.inj evaluated
        exact congrArg (· + 1) (ih tail)
      · cases evaluated
    · cases evaluated

/-! ### Filters, transformations and slices -/

private theorem FilterStage.admits_of_compile {query : Symbol} {expression : Expression}
    (compiled : Expression.compile query = .ok expression) (row : Row) :
    (FilterStage.mk expression).admits row = query.holds row := by
  rw [admits, Symbol.holds, Expression.evaluate, Expression.symbol_of_compile compiled]
  cases query.evaluate row with
  | error => rfl
  | ok value => cases value <;> rfl

theorem FilterStage.passes {query : Symbol} {expression : Expression} {rows out : List Row}
    (compiled : Expression.compile query = .ok expression) (filtered : query.filterRows rows = .ok out) :
    StageBody.Passes services next (.filter ⟨expression⟩) rows out := by
  induction rows generalizing out with
  | nil =>
    obtain rfl : [] = out := Except.ok.inj filtered
    exact .nil trivial
  | cons row rest ih =>
    obtain ⟨passes, holds, filtered⟩ := ok_of_bind filtered
    obtain ⟨others, later, filtered⟩ := ok_of_bind filtered
    rw [← admits_of_compile compiled] at holds
    cases passes with
    | false =>
      obtain rfl : others = out := Except.ok.inj filtered
      refine .drop trivial (fun below job => ?_) (ih later)
      simp only [StageBody.takeRow, own_bind, takeRow, within, holds]
      rfl
    | true =>
      obtain rfl : row :: others = out := Except.ok.inj filtered
      refine .pass trivial (fun below job => ?_) (ih later)
      simp only [StageBody.takeRow, own_bind, takeRow, within, holds]
      rfl

theorem EvalStage.passes {outputs : List Symbol} {expressions : List Expression} {rows out : List Row}
    (compiled : Expression.compileAll outputs = .ok expressions)
    (mapped : rows.mapM (Symbol.evaluateAll · outputs) = .ok out) :
    StageBody.Passes services next (.eval ⟨expressions⟩) rows out := by
  induction rows generalizing out with
  | nil =>
    obtain rfl : [] = out := Except.ok.inj mapped
    exact .nil trivial
  | cons row rest ih =>
    rw [List.mapM_cons] at mapped
    obtain ⟨values, evaluated, mapped⟩ := ok_of_bind mapped
    obtain ⟨others, later, mapped⟩ := ok_of_bind mapped
    obtain rfl : values :: others = out := Except.ok.inj mapped
    rw [← Expression.evaluateAll_of_compileAll compiled] at evaluated
    refine .pass trivial (fun below job => ?_) (ih later)
    simp only [StageBody.takeRow, own_bind, takeRow, within, evaluated]
    rfl

private theorem SliceStage.takeRow_wanted (row : Row) (remaining : Nat) (below : δ) (job : Job σ) :
    StageBody.takeRow services next row ((.slice ⟨0, remaining + 1⟩, below), job) =
      (Turn.below (next.takeRow row) >>= fun flow =>
        pure (if remaining = 0 then .stop else flow)) ((.slice ⟨0, remaining⟩, below), job) := by
  have entered : StageBody.takeRow services next row ((.slice ⟨0, remaining + 1⟩, below), job) =
      within StageBody.slice ⟨0, remaining + 1⟩ (SliceStage.takeRow next row)
        ((.slice ⟨0, remaining + 1⟩, below), job) := rfl
  have taken : SliceStage.takeRow next row ((⟨0, remaining + 1⟩, below), job) =
      (Turn.below (next.takeRow row) >>= fun flow =>
        pure (if remaining = 0 then Flow.stop else flow)) ((⟨0, remaining⟩, below), job) := by
    simp only [SliceStage.takeRow, own_bind, Nat.lt_irrefl, if_false, Nat.succ_ne_zero, setOwn_bind,
      Nat.add_sub_cancel, Nat.add_eq_right]
  simp only [entered, within, taken, bind_apply, Turn.below]
  rcases next.takeRow row (below, job) with ⟨error | flow, after⟩ <;> rfl

theorem SliceStage.passes (toSkip remaining : Nat) (rows : List Row) :
    StageBody.Passes services next (.slice ⟨toSkip, remaining⟩) rows
      ((rows.drop toSkip).take remaining) := by
  induction rows generalizing toSkip remaining with
  | nil =>
    rw [List.drop_nil, List.take_nil]
    exact .nil trivial
  | cons row rest ih =>
    cases toSkip with
    | succ toSkip => exact .drop trivial (fun _ _ => rfl) (ih toSkip remaining)
    | zero =>
      cases remaining with
      | zero => exact .stop trivial fun _ _ => rfl
      | succ remaining =>
        cases remaining with
        | zero =>
          have passing : (StageBody.slice ⟨0, 0⟩).IsPassing := trivial
          exact .last trivial passing (takeRow_wanted row 0)
        | succ remaining =>
          refine .pass trivial (fun below job => ?_) (ih 0 (remaining + 1))
          rw [takeRow_wanted, bind_apply]
          rcases Turn.below (next.takeRow row) _ with ⟨error | flow, after⟩ <;> rfl

/-! ### Counts -/

namespace CountStage

/-- The total that a stage has once the rows to come are counted. -/
def Promises (out : List Row) (stage : CountStage) (rest : List Row) : Prop :=
  ∃ total, rest.foldlM plus stage.total = .ok total ∧ out = [[.long total]]

theorem takeRow_promises {excused : ExecutionError → Prop} {out : List Row} (stage : CountStage)
    (row : Row) (rest : List Row) (promise : stage.Promises out (row :: rest)) (job : Job σ) :
    Runs (takeRow row) excused (fun flow last => flow = .more ∧ last.1.Promises out rest)
      (stage, job) := by
  obtain ⟨total, folded, emitted⟩ := promise
  rw [List.foldlM_cons] at folded
  obtain ⟨more, first, later⟩ := ok_of_bind folded
  refine Runs.own_bind ?_
  rw [first, evaluated_ok, pure_bind]
  exact Runs.setOwn_bind (Runs.pure ⟨rfl, total, later, emitted⟩)

end CountStage

namespace Counts

theorem plus_of_ofRow {row : Row} {count : Int} {start more : Int64} (counted : ofRow row = .ok count)
    (fits : Long.ofInt? (start.toInt + count) = some more) :
    CountStage.plus start row = .ok more := by
  cases row with
  | nil => cases counted
  | cons cell rest =>
    cases cell with
    | null =>
      obtain rfl : 0 = count := Except.ok.inj counted
      rw [(Long.ofInt?_eq_some fits).1, Int.add_zero, Int64.ofInt_toInt]
      rfl
    | long number =>
      obtain rfl : number.toInt = count := Except.ok.inj counted
      simp only [CountStage.plus, fits]
    | bool | double | text | array | object => cases counted

theorem total_of_sumRows {rows out : List Row} (summed : sumRows rows = .ok out) :
    ∃ counts total, rows.mapM ofRow = .ok counts ∧ Long.ofInt? counts.sum = some total ∧
      out = [[.long total]] := by
  obtain ⟨counts, counted, summed⟩ := ok_of_bind summed
  cases fits : Long.ofInt? counts.sum with
  | none =>
    rw [fits] at summed
    cases summed
  | some total =>
    rw [fits] at summed
    exact ⟨counts, total, counted, fits, (Except.ok.inj summed).symm⟩

private theorem Bounded.of_concat {rows : List Row} {row : Row} (bounded : Bounded (rows ++ [row])) :
    Bounded rows ∧ ∃ out, sumRows rows = .ok out := by
  have first {length : Nat} (least : length ≤ rows.length) :
      (sumRows (rows.take length)).isOk = true := by
    have bound := bounded length (by rw [List.length_append]; omega)
    rwa [List.take_append_of_le_length least] at bound
  refine ⟨fun _ least => first least, ?_⟩
  have whole := first (Nat.le_refl rows.length)
  rw [List.take_length] at whole
  cases summed : sumRows rows with
  | ok out => exact ⟨out, rfl⟩
  | error fault =>
    rw [summed] at whole
    cases whole

/-- Counts that are added one after the other come to their sum, if none of the sums on the way is too
great. -/
theorem foldlM_plus {rows : List Row} {counts : List Int} {total : Int64}
    (counted : rows.mapM ofRow = .ok counts) (fits : Long.ofInt? counts.sum = some total)
    (bounded : Bounded rows) : rows.foldlM CountStage.plus 0 = .ok total := by
  induction rows using List.reverseRecOn generalizing counts total with
  | nil =>
    obtain rfl : [] = counts := Except.ok.inj counted
    obtain rfl : 0 = total := Option.some.inj fits
    rfl
  | append_singleton rows row ih =>
    rw [List.mapM_append] at counted
    obtain ⟨earlier, first, counted⟩ := ok_of_bind counted
    obtain ⟨last, single, counted⟩ := ok_of_bind counted
    obtain rfl := Except.ok.inj counted
    rw [List.mapM_cons] at single
    obtain ⟨count, own, single⟩ := ok_of_bind single
    obtain rfl : [count] = last := Except.ok.inj single
    obtain ⟨shorter, _, summed⟩ := bounded.of_concat
    obtain ⟨_, sum, again, sumFits, rfl⟩ := total_of_sumRows summed
    obtain rfl := Except.ok.inj (first.symm.trans again)
    rw [List.foldlM_append, ih first sumFits shorter]
    rw [List.sum_append, List.sum_singleton, ← (Long.ofInt?_eq_some sumFits).2] at fits
    exact congrArg (· >>= pure) (plus_of_ofRow own fits)

theorem promises_of_sumRows {rows out : List Row} (summed : sumRows rows = .ok out)
    (bounded : Bounded rows) : CountStage.Promises out {} rows := by
  obtain ⟨counts, total, counted, fits, same⟩ := total_of_sumRows summed
  exact ⟨total, foldlM_plus counted fits bounded, same⟩

end Counts

/-! ### Aggregations -/

namespace Aggregate

/-- One step of one call, which fails if the row does. -/
def advance (row : Row) (call : Aggregate × AggregateState) :
    Except EvaluationFault (Aggregate × AggregateState) :=
  match call.1.step row call.2 with
  | (state, none) => .ok (call.1, state)
  | (_, some fault) => .error fault

/-- The states of several calls after all rows. -/
def foldAll (rows : List Row) (states : List (Aggregate × AggregateState)) :
    Except EvaluationFault (List (Aggregate × AggregateState)) :=
  rows.foldlM (fun states row => states.mapM (advance row)) states

theorem stepAll_eq (row : Row) (states : List (Aggregate × AggregateState)) :
    states.mapM (advance row) =
      match stepAll row states with
      | (states, none) => .ok states
      | (_, some fault) => .error fault := by
  induction states with
  | nil => rfl
  | cons call rest ih =>
    obtain ⟨aggregate, state⟩ := call
    rw [List.mapM_cons, ih, stepAll, advance]
    rcases aggregate.step row state with ⟨after, _ | fault⟩
    · rcases stepAll row rest with ⟨others, _ | fault⟩ <;> rfl
    · rfl

theorem inputValue_of_compile {mode : AggregateMode} {call : AggregateCall} {aggregate : Aggregate}
    (compiled : compile mode call = .ok aggregate) :
    aggregate.function = call.function ∧ aggregate.mode = mode ∧
      ∀ row, aggregate.inputValue row = call.inputs.head?.mapM (·.evaluate row) := by
  unfold compile at compiled
  dsimp only at compiled
  split at compiled
  · cases compiled
  obtain ⟨input, head, compiled⟩ := ok_of_bind compiled
  obtain rfl := Except.ok.inj compiled
  refine ⟨rfl, rfl, fun row => ?_⟩
  cases given : call.inputs.head? with
  | none =>
    rw [given] at head
    obtain rfl : none = input := Except.ok.inj head
    rfl
  | some symbol =>
    rw [given] at head
    cases first : Expression.compile symbol with
    | error => simp [Expression.compileOption, first, Except.map] at head
    | ok expression =>
      obtain rfl : some expression = input := by
        simpa [Expression.compileOption, first, Except.map] using head
      simp only [inputValue, Expression.evaluate, Expression.symbol_of_compile first]
      change _ = (do return some (← symbol.evaluate row))
      cases symbol.evaluate row <;> rfl

private theorem advance_of_compile {mode : AggregateMode} {call : AggregateCall} {aggregate : Aggregate}
    (compiled : compile mode call = .ok aggregate) (row : Row) (state : AggregateState) :
    advance row (aggregate, state) = (call.step mode state row).map (aggregate, ·) := by
  obtain ⟨function, sameMode, input⟩ := inputValue_of_compile compiled
  rw [advance, step, AggregateCall.step, input, function, sameMode]
  cases call.inputs.head?.mapM (·.evaluate row) with
  | error => rfl
  | ok value =>
    change _ = (call.take mode value state).map (aggregate, ·)
    dsimp only [AggregateCall.take]
    generalize (if mode.consumesPartials = true then state.reduce call.function (value.getD .null)
      else state.iterate call.function value) = stepped
    rcases stepped with ⟨after, _ | fault⟩ <;> rfl

private theorem fold_of_compile {mode : AggregateMode} {call : AggregateCall} {aggregate : Aggregate}
    (compiled : compile mode call = .ok aggregate) (rows : List Row) (state : AggregateState) :
    rows.foldlM (fun item row => advance row item) (aggregate, state) =
      (rows.foldlM (call.step mode) state).map (aggregate, ·) := by
  induction rows generalizing state with
  | nil => rfl
  | cons row rest ih =>
    rw [List.foldlM_cons, List.foldlM_cons, advance_of_compile compiled]
    cases call.step mode state row with
    | error => rfl
    | ok after => exact ih after

/-- The states of compiled calls are those of the calls, one by one. -/
theorem folds_of_compileAll {mode : AggregateMode} {calls : List AggregateCall}
    {aggregates : List Aggregate} (compiled : compileAll mode calls = .ok aggregates)
    (rows : List Row) :
    (initialAll aggregates).mapM (fun item => rows.foldlM (fun item row => advance row item) item) =
      (calls.mapM fun (call : AggregateCall) => call.fold mode rows).map (aggregates.zip ·) := by
  induction calls generalizing aggregates with
  | nil =>
    obtain rfl : [] = aggregates := Except.ok.inj compiled
    rfl
  | cons call rest ih =>
    rw [compileAll, List.mapM_cons] at compiled
    obtain ⟨first, head, compiled⟩ := ok_of_bind compiled
    obtain ⟨others, tail, compiled⟩ := ok_of_bind compiled
    obtain rfl : first :: others = aggregates := Except.ok.inj compiled
    rw [initialAll, List.map_cons, List.mapM_cons, List.mapM_cons, ← initialAll, ih tail,
      fold_of_compile head, initial, (inputValue_of_compile head).1]
    rw [AggregateCall.fold]
    cases rows.foldlM (call.step mode) (.initial call.function) with
    | error => rfl
    | ok state => cases rest.mapM (fun call => call.fold mode rows) <;> rfl

theorem terminateAll_zip {mode : AggregateMode} {calls : List AggregateCall}
    {aggregates : List Aggregate} (compiled : compileAll mode calls = .ok aggregates)
    {states : List AggregateState} (lengths : states.length = calls.length) :
    terminateAll (aggregates.zip states) = states.map (AggregateCall.resultOf mode) := by
  induction calls generalizing aggregates states with
  | nil =>
    obtain rfl := List.eq_nil_of_length_eq_zero lengths
    simp [terminateAll]
  | cons call rest ih =>
    rw [compileAll, List.mapM_cons] at compiled
    obtain ⟨first, head, compiled⟩ := ok_of_bind compiled
    obtain ⟨others, tail, compiled⟩ := ok_of_bind compiled
    obtain rfl : first :: others = aggregates := Except.ok.inj compiled
    obtain ⟨state, later, rfl⟩ := List.exists_cons_of_length_eq_add_one lengths
    have results := ih tail (Nat.succ.inj lengths)
    rw [terminateAll] at results
    rw [List.zip_cons_cons, terminateAll, List.map_cons, List.map_cons, results]
    simp only [terminate, (inputValue_of_compile head).2.1, AggregateCall.resultOf]

/-- What several compiled calls come to on rows is what each of the calls comes to. -/
theorem foldAll_of_compileAll {mode : AggregateMode} {calls : List AggregateCall}
    {aggregates : List Aggregate} (compiled : compileAll mode calls = .ok aggregates)
    {rows : List Row} {finals : List (Aggregate × AggregateState)} :
    foldAll rows (initialAll aggregates) = .ok finals ↔
      ∃ states, (calls.mapM fun call => call.fold mode rows) = .ok states ∧
        finals = aggregates.zip states := by
  rw [foldAll, foldlM_mapM_iff, folds_of_compileAll compiled]
  cases calls.mapM fun call => call.fold mode rows with
  | error fault =>
    constructor
    · intro impossible
      cases impossible
    · rintro ⟨_, impossible, _⟩
      cases impossible
  | ok states =>
    constructor
    · exact fun same => ⟨states, rfl, (Except.ok.inj same).symm⟩
    · rintro ⟨_, same, rfl⟩
      rw [Except.ok.inj same]
      rfl

end Aggregate

namespace AggregateStage

/-- What a stage emits once the rows to come are aggregated. -/
def Promises (result : Except EvaluationFault (List Row)) (stage : AggregateStage)
    (rest : List Row) : Prop :=
  (Aggregate.foldAll rest stage.states).map (fun states => [Aggregate.terminateAll states]) = result

theorem promises_of_aggregateRows {mode : AggregateMode} {calls : List AggregateCall}
    {aggregates : List Aggregate} (compiled : Aggregate.compileAll mode calls = .ok aggregates)
    {rows out : List Row} (aggregated : AggregateCall.aggregateRows calls mode rows = .ok out) :
    AggregateStage.Promises (.ok out) ⟨Aggregate.initialAll aggregates⟩ rows := by
  obtain ⟨states, folded, aggregated⟩ := ok_of_bind aggregated
  obtain rfl := Except.ok.inj aggregated
  rw [Promises, (Aggregate.foldAll_of_compileAll compiled).mpr ⟨states, folded, rfl⟩, Except.map,
    Aggregate.terminateAll_zip compiled (length_of_mapM folded)]

theorem takeRow_promises {excused : ExecutionError → Prop}
    {result : Except EvaluationFault (List Row)}
    (faults : ∀ fault, result = .error fault → excused (.evaluation fault)) (stage : AggregateStage)
    (row : Row) (rest : List Row) (promise : stage.Promises result (row :: rest)) (job : Job σ) :
    Runs (takeRow row) excused (fun flow last => flow = .more ∧ last.1.Promises result rest)
      (stage, job) := by
  refine Runs.own_bind ?_
  rw [Promises, Aggregate.foldAll, List.foldlM_cons, Aggregate.stepAll_eq] at promise
  rcases stepped : Aggregate.stepAll row stage.states with ⟨states, _ | fault⟩
  · rw [stepped] at promise
    exact Runs.setOwn_bind (Runs.pure ⟨rfl, promise⟩)
  · rw [stepped] at promise
    exact faults fault promise.symm

end AggregateStage

end RowPipeline
