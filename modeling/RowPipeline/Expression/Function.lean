/-!
The scalar functions, by name and by the number of arguments they take.
-/

namespace RowPipeline

inductive ScalarFunction where
  | eq
  | notEq
  | gt
  | gte
  | lt
  | lte
  | and
  | or
  | not
  | isNull
  | add
  | subtract
  | multiply
  | concat
  deriving DecidableEq, Repr

namespace ScalarFunction

def name : ScalarFunction → String
  | .eq => "eq"
  | .notEq => "not_eq"
  | .gt => "gt"
  | .gte => "gte"
  | .lt => "lt"
  | .lte => "lte"
  | .and => "and"
  | .or => "or"
  | .not => "not"
  | .isNull => "is_null"
  | .add => "add"
  | .subtract => "subtract"
  | .multiply => "multiply"
  | .concat => "concat"

def all : List ScalarFunction :=
  [.eq, .notEq, .gt, .gte, .lt, .lte, .and, .or, .not, .isNull, .add, .subtract, .multiply, .concat]

def accepts (function : ScalarFunction) (arguments : Nat) : Bool :=
  match function with
  | .not | .isNull => arguments == 1
  | .concat => 1 ≤ arguments
  | _ => arguments == 2

end ScalarFunction

end RowPipeline
