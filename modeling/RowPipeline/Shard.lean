/-!
Shards: the numbered parts of an index.
-/

namespace RowPipeline

abbrev NodeName := String

/-- A decimal number below a bound, possibly with a plus sign in front. -/
def boundedNumber? (bound : Nat) (digits : List Char) : Option Nat :=
  let digits :=
    match digits with
    | '+' :: rest => rest
    | digits => digits
  if digits.isEmpty || !digits.all Char.isDigit then none
  else
    let number := digits.foldl (fun number digit => number * 10 + (digit.toNat - '0'.toNat)) 0
    if number < bound then some number else none

structure ShardId where
  index : String
  id : Nat
  deriving DecidableEq, Repr

namespace ShardId

def display (shard : ShardId) : String := s!"[{shard.index}][{shard.id}]"

/-- Shards are ordered by index and then by number. -/
def compare (left right : ShardId) : Ordering :=
  (Ord.compare left.index right.index).then (Ord.compare left.id right.id)

instance : Ord ShardId := ⟨compare⟩

def splitLast? (separator : Char) (text : List Char) : Option (List Char × List Char) :=
  let reversed := text.reverse
  match reversed.dropWhile (· != separator) with
  | _ :: front => some (front.reverse, (reversed.takeWhile (· != separator)).reverse)
  | [] => none

/-- Reads `index:number`; the index may hold colons but has to be there. -/
def parse? (text : String) : Option ShardId := do
  let (index, number) ← splitLast? ':' text.toList
  if index.isEmpty then none
  else
    let id ← boundedNumber? 0x100000000 number
    some ⟨String.ofList index, id⟩

end ShardId

end RowPipeline
