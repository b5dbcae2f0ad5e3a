/-!
How serious a log entry is.
-/

namespace RowPipeline

inductive Severity where
  | trace
  | info
  | warn
  | error
  deriving DecidableEq, Repr

namespace Severity

def level : Severity → Nat
  | .trace => 0
  | .info => 1
  | .warn => 2
  | .error => 3

def name : Severity → String
  | .trace => "TRACE"
  | .info => "INFO"
  | .warn => "WARN"
  | .error => "ERROR"

def all : List Severity := [.trace, .info, .warn, .error]

/-- Reads a name in any mixture of upper and lower case. -/
def parse? (text : String) : Option Severity :=
  all.find? fun severity => severity.name == String.ofList (text.toList.map Char.toUpper)

end Severity

end RowPipeline
