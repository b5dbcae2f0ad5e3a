import RowPipeline.Double.Arithmetic
import RowPipeline.Expression.Symbol
import RowPipeline.Row
import RowPipeline.Value.Text

/-!
Evaluation of expressions. Comparisons and logic are three-valued: a null makes the result null
unless another argument already decides it.
-/

namespace RowPipeline

namespace ScalarFunction

/-- What the order of the arguments has to be for a comparison to hold; `none` for functions that
are not comparisons. -/
def comparison? : ScalarFunction → Option (Ordering → Bool)
  | .eq => some (· == .eq)
  | .notEq => some (· != .eq)
  | .gt => some (· == .gt)
  | .gte => some (· != .lt)
  | .lt => some (· == .lt)
  | .lte => some (· != .gt)
  | _ => none

/-- Logic over arguments of which one with the value `decisive` settles the result. An argument
that comes after a decisive one is not looked at. -/
def logical (function : ScalarFunction) (decisive : Bool) :
    Bool → List Value → Except EvaluationFault Value
  | sawNull, [] => .ok (if sawNull then .null else .bool !decisive)
  | sawNull, .bool value :: rest =>
    if value == decisive then .ok (.bool decisive) else logical function decisive sawNull rest
  | _, .null :: rest => logical function decisive true rest
  | _, other :: _ => .error (.argumentType function other.type)

/-- Arithmetic is exact on two integers, which may overflow, and rounded on doubles. -/
def arithmetic (function : ScalarFunction) (onIntegers : Int → Int → Int)
    (onDoubles : Double → Double → Double) (left right : Value) : Except EvaluationFault Value :=
  match left, right with
  | .null, _ => .ok .null
  | _, .null => .ok .null
  | .long first, .long second =>
    match Long.ofInt? (onIntegers first.toInt second.toInt) with
    | some result => .ok (.long result)
    | none => .error (.longOverflow function first second)
  | _, _ =>
    match left.double?, right.double? with
    | some first, some second => .ok (.double (onDoubles first second))
    | none, _ => .error (.argumentType function left.type)
    | _, none => .error (.argumentType function right.type)

def concatenate (arguments : List Value) : Value :=
  if arguments.all Value.isNull then .null
  else .text (String.join ((arguments.filter (!·.isNull)).map Value.display))

/-- The function on evaluated arguments. A binary function looks at the first two. -/
def apply (function : ScalarFunction) (arguments : List Value) : Except EvaluationFault Value :=
  match function, arguments with
  | .concat, arguments => .ok (concatenate arguments)
  | .and, arguments => logical .and false false arguments
  | .or, arguments => logical .or true false arguments
  | .isNull, value :: _ => .ok (.bool value.isNull)
  | .not, .null :: _ => .ok .null
  | .not, .bool value :: _ => .ok (.bool !value)
  | .not, other :: _ => .error (.argumentType .not other.type)
  | .add, left :: right :: _ => arithmetic .add (· + ·) Double.add left right
  | .subtract, left :: right :: _ => arithmetic .subtract (· - ·) Double.sub left right
  | .multiply, left :: right :: _ => arithmetic .multiply (· * ·) Double.mul left right
  | function, left :: right :: _ =>
    match function.comparison? with
    | some holds =>
      if left.isNull || right.isNull then .ok .null else .ok (.bool (holds (left.compare right)))
    | none => .error (.missingArgument function)
  | function, _ => .error (.missingArgument function)

end ScalarFunction

namespace Symbol

mutual

def evaluate (row : Row) : Symbol → Except EvaluationFault Value
  | .input index =>
    match row[index]? with
    | some value => .ok value
    | none => .error (.columnOutOfRange index row.length)
  | .literal value => .ok value
  | .call function arguments =>
    match evaluateAll row arguments with
    | .ok values => function.apply values
    | .error fault => .error fault

def evaluateAll (row : Row) : List Symbol → Except EvaluationFault (List Value)
  | [] => .ok []
  | symbol :: rest =>
    match evaluate row symbol with
    | .ok value =>
      match evaluateAll row rest with
      | .ok values => .ok (value :: values)
      | .error fault => .error fault
    | .error fault => .error fault

end

end Symbol

namespace Expression

def evaluate (expression : Expression) (row : Row) : Except EvaluationFault Value :=
  expression.symbol.evaluate row

def evaluateAll (expressions : List Expression) (row : Row) : Except EvaluationFault (List Value) :=
  expressions.mapM (·.evaluate row)

def evaluateAssignments (assignments : List (String × Expression)) (row : Row) :
    Except EvaluationFault (List (String × Value)) :=
  assignments.mapM fun (column, expression) => return (column, ← expression.evaluate row)

end Expression

end RowPipeline
