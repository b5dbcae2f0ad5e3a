import RowPipeline.Error.Basic

/-!
Expressions over the columns of a row. An expression is a tree whose calls were found to have
admissible numbers of arguments; a tree that was not checked is only a symbol.
-/

namespace RowPipeline

inductive Symbol where
  | input (index : Nat)
  | literal (value : Value)
  | call (function : ScalarFunction) (arguments : List Symbol)
  deriving Inhabited, Repr, BEq

namespace Symbol

mutual

/-- Fails at the first call, from the outside inwards and from left to right, whose number of
arguments the function does not take. -/
def check : Symbol → Except ParameterFault Unit
  | .input _ => .ok ()
  | .literal _ => .ok ()
  | .call function arguments =>
    if function.accepts arguments.length then checkAll arguments
    else .error (.argumentCount function arguments.length)

def checkAll : List Symbol → Except ParameterFault Unit
  | [] => .ok ()
  | symbol :: rest =>
    match check symbol with
    | .ok () => checkAll rest
    | .error fault => .error fault

end

end Symbol

/-- A symbol that can be evaluated on every row. -/
structure Expression where
  symbol : Symbol
  checked : symbol.check = .ok ()

namespace Expression

def compile (symbol : Symbol) : Except ExecutionError Expression :=
  match checked : symbol.check with
  | .ok () => .ok ⟨symbol, checked⟩
  | .error fault => .error (.invalidParameter fault)

def compileAll (symbols : List Symbol) : Except ExecutionError (List Expression) :=
  symbols.mapM compile

def compileOption : Option Symbol → Except ExecutionError (Option Expression)
  | none => .ok none
  | some symbol => (compile symbol).map some

def compileAssignments (assignments : List (String × Symbol)) :
    Except ExecutionError (List (String × Expression)) :=
  assignments.mapM fun (column, symbol) => return (column, ← compile symbol)

end Expression

end RowPipeline
