/-!
The aggregate functions and the three shapes in which an aggregation runs: on rows with final
results, on rows with partial results, and on partial results.
-/

namespace RowPipeline

inductive AggregateFunction where
  | countStar
  | count
  | sum
  | min
  | max
  | avg
  | arbitrary
  deriving DecidableEq, Repr

namespace AggregateFunction

def all : List AggregateFunction := [.countStar, .count, .sum, .min, .max, .avg, .arbitrary]

/-- The name in plans. -/
def tag : AggregateFunction → String
  | .countStar => "count_star"
  | .count => "count"
  | .sum => "sum"
  | .min => "min"
  | .max => "max"
  | .avg => "avg"
  | .arbitrary => "arbitrary"

/-- The name shown in messages. -/
def name : AggregateFunction → String
  | .countStar => "count(*)"
  | other => other.tag

def arity : AggregateFunction → Nat
  | .countStar => 0
  | _ => 1

end AggregateFunction

inductive AggregateMode where
  | iterFinal
  | iterPartial
  | partialFinal
  deriving DecidableEq, Repr

namespace AggregateMode

def all : List AggregateMode := [.iterFinal, .iterPartial, .partialFinal]

def tag : AggregateMode → String
  | .iterFinal => "iter_final"
  | .iterPartial => "iter_partial"
  | .partialFinal => "partial_final"

/-- The name shown in messages. -/
def name : AggregateMode → String
  | .iterFinal => "IterFinal"
  | .iterPartial => "IterPartial"
  | .partialFinal => "PartialFinal"

def consumesPartials (mode : AggregateMode) : Bool := mode == .partialFinal

def producesPartials (mode : AggregateMode) : Bool := mode == .iterPartial

end AggregateMode

end RowPipeline
