import RowPipeline.Bulk.ItemFault
import RowPipeline.Expression.Evaluation
import RowPipeline.Stage.Receiver

/-!
Expressions are safe on every row. A symbol compiles exactly if every call in it has a number of
arguments that its function takes. Then evaluation gives a value or fails for a reason that the row
gives: a column that it lacks, an argument of a type that a function does not take, or an integer that
does not fit. No function misses an argument.
-/

namespace RowPipeline

namespace Symbol

/-- The parts of a symbol, of which it is one. -/
inductive IsPart : Symbol → Symbol → Prop where
  | self : IsPart symbol symbol
  | argument : argument ∈ arguments → IsPart part argument → IsPart part (.call function arguments)

/-- All calls, however deep, have numbers of arguments that their functions take. -/
def Admissible (symbol : Symbol) : Prop :=
  ∀ function arguments, IsPart (.call function arguments) symbol →
    function.accepts arguments.length = true

private theorem admissible_input {index : Nat} : (Symbol.input index).Admissible := by
  intro _ _ part
  cases part

private theorem admissible_literal {value : Value} : (Symbol.literal value).Admissible := by
  intro _ _ part
  cases part

private theorem admissible_call_iff {function : ScalarFunction} {arguments : List Symbol} :
    (Symbol.call function arguments).Admissible ↔
      function.accepts arguments.length = true ∧ ∀ argument ∈ arguments, argument.Admissible := by
  constructor
  · intro admissible
    refine ⟨admissible function arguments .self, fun argument member inner given part => ?_⟩
    exact admissible inner given (.argument member part)
  · rintro ⟨accepted, each⟩ inner given part
    cases part with
    | self => exact accepted
    | argument member part => exact each _ member inner given part

/-! ### Compilation -/

mutual

theorem check_eq_ok_iff (symbol : Symbol) : symbol.check = .ok () ↔ symbol.Admissible := by
  match symbol with
  | .input index => exact ⟨fun _ => admissible_input, fun _ => rfl⟩
  | .literal value => exact ⟨fun _ => admissible_literal, fun _ => rfl⟩
  | .call function arguments =>
    rw [admissible_call_iff, ← checkAll_eq_ok_iff arguments, check]
    by_cases accepted : function.accepts arguments.length = true
    · simp [accepted]
    · simp [accepted]

private theorem checkAll_eq_ok_iff (symbols : List Symbol) :
    checkAll symbols = .ok () ↔ ∀ symbol ∈ symbols, symbol.Admissible := by
  match symbols with
  | [] => simp [checkAll]
  | symbol :: rest =>
    rw [List.forall_mem_cons, ← check_eq_ok_iff symbol, ← checkAll_eq_ok_iff rest, checkAll]
    cases symbol.check <;> simp

end

mutual

private theorem check_eq_error {symbol : Symbol} {fault : ParameterFault}
    (refused : symbol.check = .error fault) :
    ∃ function arguments, IsPart (.call function arguments) symbol ∧
      function.accepts arguments.length = false ∧
      fault = .argumentCount function arguments.length := by
  match symbol with
  | .input index => cases refused
  | .literal value => cases refused
  | .call function arguments =>
    rw [check] at refused
    split at refused
    · obtain ⟨argument, member, inner, given, part, told⟩ := checkAll_eq_error refused
      exact ⟨inner, given, .argument member part, told⟩
    next unaccepted =>
      cases refused
      exact ⟨function, arguments, .self, by simpa using unaccepted, rfl⟩

private theorem checkAll_eq_error {symbols : List Symbol} {fault : ParameterFault}
    (refused : checkAll symbols = .error fault) :
    ∃ symbol ∈ symbols, ∃ function arguments, IsPart (.call function arguments) symbol ∧
      function.accepts arguments.length = false ∧
      fault = .argumentCount function arguments.length := by
  match symbols with
  | [] => cases refused
  | symbol :: rest =>
    rw [checkAll] at refused
    split at refused
    · obtain ⟨later, member, told⟩ := checkAll_eq_error refused
      exact ⟨later, .tail _ member, told⟩
    next first =>
      cases refused
      exact ⟨symbol, .head _, check_eq_error first⟩

end

end Symbol

/-! ### Functions -/

namespace ScalarFunction

/-- Whether a function has a result for arguments of a type. -/
def takes (function : ScalarFunction) (type : ValueType) : Bool :=
  match function with
  | .and | .or | .not => [.null, .boolean].contains type
  | .add | .subtract | .multiply => [.null, .long, .double].contains type
  | _ => true

/-- What a function does to two integers, if it is arithmetic. -/
def onIntegers? : ScalarFunction → Option (Int → Int → Int)
  | .add => some (· + ·)
  | .subtract => some (· - ·)
  | .multiply => some (· * ·)
  | _ => none

/-- Why a function has no result for its arguments. -/
inductive Declines (function : ScalarFunction) (values : List Value) : EvaluationFault → Prop where
  | type : value ∈ values → function.takes value.type = false →
      Declines function values (.argumentType function value.type)
  | overflow : values = [.long left, .long right] → function.onIntegers? = some operation →
      Long.ofInt? (operation left.toInt right.toInt) = none →
      Declines function values (.longOverflow function left right)

variable {function : ScalarFunction} {fault : EvaluationFault}

private theorem declines_of_logical (logic : function.onIntegers? = none)
    (takes : ∀ type, function.takes type = [.null, .boolean].contains type)
    {decisive sawNull : Bool} {values : List Value}
    (failed : logical function decisive sawNull values = .error fault) :
    function.Declines values fault := by
  induction values generalizing sawNull with
  | nil => cases failed
  | cons value rest ih =>
    have later {sawNull : Bool} (failed : logical function decisive sawNull rest = .error fault) :
        function.Declines (value :: rest) fault := by
      cases ih failed with
      | type member untaken => exact .type (.tail _ member) untaken
      | overflow _ arithmetic => rw [logic] at arithmetic; cases arithmetic
    cases value with
    | null => exact later failed
    | bool value =>
      rw [logical] at failed
      split at failed
      · cases failed
      · exact later failed
    | _ =>
      cases failed
      exact .type (.head _) (takes _)

private theorem untyped_of_double?_eq_none {value : Value} (present : value = .null → False)
    (noNumber : value.double? = none) : [.null, .long, .double].contains value.type = false := by
  cases value with
  | null => exact absurd rfl present
  | long | double => cases noNumber
  | _ => rfl

theorem declines_of_arithmetic {operation : Int → Int → Int} {onDoubles : Double → Double → Double}
    {left right : Value} (arithmetical : function.onIntegers? = some operation)
    (takes : ∀ type, function.takes type = [.null, .long, .double].contains type)
    (failed : arithmetic function operation onDoubles left right = .error fault) :
    function.Declines [left, right] fault := by
  have onLeft (untaken : [.null, .long, .double].contains left.type = false)
      (told : fault = .argumentType function left.type) : function.Declines [left, right] fault :=
    told ▸ .type (.head _) ((takes left.type).trans untaken)
  have onRight (untaken : [.null, .long, .double].contains right.type = false)
      (told : fault = .argumentType function right.type) : function.Declines [left, right] fault :=
    told ▸ .type (.tail _ (.head _)) ((takes right.type).trans untaken)
  unfold arithmetic at failed
  split at failed
  · cases failed
  · cases failed
  next first second =>
    split at failed
    · cases failed
    next outside =>
      cases failed
      exact .overflow rfl arithmetical outside
  next notLeft notRight _ =>
    split at failed
    · cases failed
    next noNumber =>
      cases failed
      exact onLeft (untyped_of_double?_eq_none notLeft noNumber) rfl
    next noNumber _ =>
      cases failed
      exact onRight (untyped_of_double?_eq_none notRight noNumber) rfl

private theorem declines_of_apply {values : List Value} (accepted : function.accepts values.length = true)
    (failed : function.apply values = .error fault) : function.Declines values fault := by
  match function, values with
  | .concat, values => cases failed
  | .and, values => exact declines_of_logical rfl (fun _ => rfl) failed
  | .or, values => exact declines_of_logical rfl (fun _ => rfl) failed
  | .isNull, [value] => cases failed
  | .not, [value] =>
    cases value with
    | null => cases failed
    | bool value => cases failed
    | _ =>
      cases failed
      exact .type (.head _) rfl
  | .add, [left, right] => exact declines_of_arithmetic rfl (fun _ => rfl) failed
  | .subtract, [left, right] => exact declines_of_arithmetic rfl (fun _ => rfl) failed
  | .multiply, [left, right] => exact declines_of_arithmetic rfl (fun _ => rfl) failed
  | .eq, [left, right] | .notEq, [left, right] | .gt, [left, right] | .gte, [left, right]
  | .lt, [left, right] | .lte, [left, right] =>
    simp only [apply, comparison?] at failed
    split at failed <;> cases failed

end ScalarFunction

/-! ### Evaluation -/

namespace Symbol

variable {row : Row} {fault : EvaluationFault}

/-- Why a symbol has no value on a row. -/
inductive Foreseen (row : Row) (symbol : Symbol) : EvaluationFault → Prop where
  | column : IsPart (.input index) symbol → row.length ≤ index →
      Foreseen row symbol (.columnOutOfRange index row.length)
  | argument : IsPart (.call function arguments) symbol → argument ∈ arguments →
      argument.evaluate row = .ok value → function.takes value.type = false →
      Foreseen row symbol (.argumentType function value.type)
  | overflow : IsPart (.call function [left, right]) symbol →
      left.evaluate row = .ok (.long first) → right.evaluate row = .ok (.long second) →
      function.onIntegers? = some operation →
      Long.ofInt? (operation first.toInt second.toInt) = none →
      Foreseen row symbol (.longOverflow function first second)

theorem Foreseen.call {function : ScalarFunction} {arguments : List Symbol} {argument : Symbol}
    (member : argument ∈ arguments) (foreseen : Foreseen row argument fault) :
    Foreseen row (.call function arguments) fault := by
  cases foreseen with
  | column part lacking => exact .column (.argument member part) lacking
  | argument part inner evaluated untaken =>
    exact .argument (.argument member part) inner evaluated untaken
  | overflow part left right arithmetical outside =>
    exact .overflow (.argument member part) left right arithmetical outside

theorem map_evaluate_of_evaluateAll {arguments : List Symbol} {values : List Value}
    (evaluated : evaluateAll row arguments = .ok values) :
    arguments.map (evaluate row) = values.map .ok := by
  induction arguments generalizing values with
  | nil =>
    cases evaluated
    rfl
  | cons argument rest ih =>
    rw [evaluateAll] at evaluated
    split at evaluated
    next value first =>
      split at evaluated
      next others found =>
        cases evaluated
        rw [List.map_cons, List.map_cons, first, ih found]
      · cases evaluated
    · cases evaluated

private theorem evaluateAll_eq_error {arguments : List Symbol}
    (failed : evaluateAll row arguments = .error fault) :
    ∃ argument ∈ arguments, argument.evaluate row = .error fault := by
  induction arguments with
  | nil => cases failed
  | cons argument rest ih =>
    rw [evaluateAll] at failed
    split at failed
    next value first =>
      split at failed
      · cases failed
      next others =>
        cases failed
        obtain ⟨later, member, told⟩ := ih others
        exact ⟨later, .tail _ member, told⟩
    next first =>
      cases failed
      exact ⟨argument, .head _, first⟩

private theorem foreseen_of_declines {function : ScalarFunction} {arguments : List Symbol}
    {values : List Value} (evaluated : evaluateAll row arguments = .ok values)
    (declines : function.Declines values fault) : Foreseen row (.call function arguments) fault := by
  have each := map_evaluate_of_evaluateAll evaluated
  cases declines with
  | type member untaken =>
    have reached := each ▸ List.mem_map_of_mem member
    obtain ⟨argument, inner, found⟩ := List.mem_map.mp reached
    exact .argument .self inner found untaken
  | overflow pair arithmetical outside =>
    subst pair
    obtain ⟨left, rest, rfl, first, each⟩ := List.map_eq_cons_iff.mp each
    obtain ⟨right, rest, rfl, second, each⟩ := List.map_eq_cons_iff.mp each
    obtain rfl := List.map_eq_nil_iff.mp each
    exact .overflow .self first second arithmetical outside

/-- An admissible symbol that has no value lacks it for a reason that the row gives. -/
theorem foreseen_of_evaluate (symbol : Symbol) (admissible : symbol.Admissible)
    (failed : symbol.evaluate row = .error fault) : Foreseen row symbol fault := by
  match symbol with
  | .input index =>
    rw [evaluate] at failed
    split at failed
    · cases failed
    next absent =>
      cases failed
      exact .column .self (List.getElem?_eq_none_iff.mp absent)
  | .literal value => cases failed
  | .call function arguments =>
    obtain ⟨accepted, each⟩ := admissible_call_iff.mp admissible
    rw [evaluate] at failed
    split at failed
    next values evaluated =>
      have lengths : arguments.length = values.length := by
        simpa using congrArg List.length (map_evaluate_of_evaluateAll evaluated)
      exact foreseen_of_declines evaluated
        (ScalarFunction.declines_of_apply (lengths ▸ accepted) failed)
    next lost =>
      cases failed
      obtain ⟨argument, member, told⟩ := evaluateAll_eq_error lost
      exact (foreseen_of_evaluate argument (each argument member) told).call member

/-- A symbol with a value on a row reads only columns that the row has. -/
theorem column_of_evaluate (symbol : Symbol) {value : Value} {index : Nat}
    (found : symbol.evaluate row = .ok value) (part : IsPart (.input index) symbol) :
    index < row.length := by
  match symbol with
  | .input column =>
    cases part with
    | self =>
      rw [evaluate] at found
      split at found
      next present => exact (List.getElem?_eq_some_iff.mp present).1
      · cases found
  | .literal constant => cases part
  | .call function arguments =>
    cases part with
    | argument member part =>
      rw [evaluate] at found
      split at found
      next values evaluated =>
        have reached := List.mem_map_of_mem (f := evaluate row) member
        rw [map_evaluate_of_evaluateAll evaluated] at reached
        obtain ⟨inner, -, same⟩ := List.mem_map.mp reached
        exact column_of_evaluate _ same.symm part
      · cases found

end Symbol

namespace Expression

variable {symbol : Symbol} {expression : Expression}

theorem compile_eq_ok_iff : compile symbol = .ok expression ↔ expression.symbol = symbol := by
  unfold compile
  split
  next checked =>
    constructor
    · intro compiled
      cases compiled
      rfl
    · intro same
      subst same
      rfl
  next refused =>
    constructor
    · intro compiled
      cases compiled
    · intro same
      have checked := same ▸ expression.checked
      rw [refused] at checked
      cases checked

theorem check_of_compile_eq_error {error : ExecutionError} (refused : compile symbol = .error error) :
    ∃ fault, symbol.check = .error fault ∧ error = .invalidParameter fault := by
  unfold compile at refused
  split at refused
  · cases refused
  next fault checked =>
    cases refused
    exact ⟨fault, checked, rfl⟩

variable {σ τ : Type}

/-- Exactly the symbols compile whose calls, at any depth, have admissible numbers of arguments. On
every row what they compile to either has a value, made of columns that the row has, or fails in a
way that the row gives reason for, that is not about a missing argument, and that can be recorded
against the row alone. -/
theorem compile_safe (symbol : Symbol) :
    ((∃ expression, compile symbol = .ok expression) ↔ symbol.Admissible) ∧
    (∀ error, compile symbol = .error error →
      ∃ function arguments, Symbol.IsPart (.call function arguments) symbol ∧
        function.accepts arguments.length = false ∧
        error = .invalidParameter (.argumentCount function arguments.length)) ∧
    ∀ expression, compile symbol = .ok expression → ∀ (row : Row) (state : τ × Job σ),
      (∃ value, expression.evaluate row = .ok value ∧
        Turn.evaluated (expression.evaluate row) state = (.ok value, state) ∧
        ∀ index, Symbol.IsPart (.input index) symbol → index < row.length) ∨
      ∃ fault, expression.evaluate row = .error fault ∧
        Turn.evaluated (expression.evaluate row) state = (.error (.evaluation fault), state) ∧
        symbol.Foreseen row fault ∧
        (∀ function, fault ≠ .missingArgument function) ∧
        (ExecutionError.evaluation fault).itemFailure? =
          some (ItemFault.evaluation fault).message := by
  refine ⟨?_, ?_, ?_⟩
  · constructor
    · intro ⟨expression, compiled⟩
      exact compile_eq_ok_iff.mp compiled ▸ (Symbol.check_eq_ok_iff _).mp expression.checked
    · intro admissible
      exact ⟨⟨symbol, (Symbol.check_eq_ok_iff symbol).mpr admissible⟩, compile_eq_ok_iff.mpr rfl⟩
  · intro error refused
    obtain ⟨fault, checked, rfl⟩ := check_of_compile_eq_error refused
    obtain ⟨function, arguments, part, unaccepted, rfl⟩ := Symbol.check_eq_error checked
    exact ⟨function, arguments, part, unaccepted, rfl⟩
  · intro expression compiled row state
    obtain rfl := compile_eq_ok_iff.mp compiled
    cases outcome : expression.evaluate row with
    | ok value =>
      refine .inl ⟨value, rfl, rfl, fun index part => ?_⟩
      exact Symbol.column_of_evaluate expression.symbol outcome part
    | error fault =>
      have admissible := (Symbol.check_eq_ok_iff _).mp expression.checked
      have foreseen := Symbol.foreseen_of_evaluate expression.symbol admissible outcome
      refine .inr ⟨fault, rfl, rfl, foreseen, ?_, rfl⟩
      intro function missing
      subst missing
      cases foreseen

/-- A sum of a column and a product: on one row it has a value, another row has too few columns, and on
a third row the product does not fit. A call of `not` without arguments, inside of it, is refused. -/
theorem compile_safe_nested :
    let symbol := Symbol.call .add [.input 0, .call .multiply [.literal (.long 4), .input 1]]
    let bare := Symbol.call .add [.input 0, .call .not []]
    let job : Job Unit := ⟨"plan", none, { label := "plan", limit := 0 }, [], { services := () }⟩
    ∃ expression, compile symbol = .ok expression ∧ symbol.Admissible ∧
      expression.evaluate [.long 1, .long 2] = .ok (.long 9) ∧
      symbol.Foreseen [.null] (.columnOutOfRange 1 1) ∧
      symbol.Foreseen [.long 0, .long 0x4000000000000000]
        (.longOverflow .multiply 4 0x4000000000000000) ∧
      Turn.evaluated (expression.evaluate [.null]) ((), job) =
        (.error (.evaluation (.columnOutOfRange 1 1)), ((), job)) ∧
      compile bare = .error (.invalidParameter (.argumentCount .not 0)) ∧ ¬ bare.Admissible := by
  intro symbol bare job
  have compiled : compile symbol = .ok ⟨symbol, rfl⟩ := rfl
  have refused : compile bare = .error (.invalidParameter (.argumentCount .not 0)) := rfl
  obtain ⟨accepts, -, safe⟩ := compile_safe (σ := Unit) (τ := Unit) symbol
  have fails {row : Row} {fault : EvaluationFault} (failed : symbol.evaluate row = .error fault) :
      symbol.Foreseen row fault ∧
        Turn.evaluated (symbol.evaluate row) ((), job) = (.error (.evaluation fault), ((), job)) := by
    rcases safe _ compiled row ((), job) with ⟨value, found, -⟩ | ⟨told, same, thrown, foreseen, -⟩
    · cases failed.symm.trans found
    · cases failed.symm.trans same
      exact ⟨foreseen, thrown⟩
  refine ⟨⟨symbol, rfl⟩, compiled, accepts.mp ⟨_, compiled⟩, rfl, (fails rfl).1, (fails rfl).1,
    (fails rfl).2, refused, ?_⟩
  intro admissible
  obtain ⟨expression, done⟩ := (compile_safe (σ := Unit) (τ := Unit) bare).1.mpr admissible
  cases refused.symm.trans done

end Expression

end RowPipeline
