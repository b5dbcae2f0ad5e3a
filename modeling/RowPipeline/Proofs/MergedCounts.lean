import Mathlib.Algebra.Ring.Int.Defs
import RowPipeline.Proofs.PartialStates

/-!
Counts that are merged from partial states. A merged count is the exact sum of the counts told, or the
program ends: nobody asks whether the sum fits before it is made, so that a sum out of range is no
fault that a caller is told of.
-/

namespace RowPipeline

namespace AggregateFunction

def CountsRows : AggregateFunction → Prop
  | .countStar | .count | .avg => True
  | _ => False

/-- The count in a partial state of a count; null is the partial state of no rows. -/
def rowsTold? : Value → Option Int
  | .null => some 0
  | .long rows => some rows.toInt
  | _ => none

/-- The count in a partial state of an average, behind the sum. -/
def averagedTold? : Value → Option Int
  | .null => some 0
  | .array [total, rows] => do
    let _ ← total.double?
    rows.long?.map Int64.toInt
  | _ => none

/-- The count that a partial state tells a function, if it is one of its partial states. -/
def countTold? : AggregateFunction → Value → Option Int
  | .avg => averagedTold?
  | _ => rowsTold?

def exactCount (function : AggregateFunction) (partials : List Value) : Int :=
  (partials.filterMap function.countTold?).sum

private theorem exactCount_concat (function : AggregateFunction) (seen : List Value) (told : Value) :
    function.exactCount (seen ++ [told]) =
      function.exactCount seen + (function.countTold? told).getD 0 := by
  simp only [exactCount, List.filterMap_append, List.sum_append, List.filterMap_cons,
    List.filterMap_nil]
  cases function.countTold? told <;> simp

end AggregateFunction

namespace AggregateState

open AggregateFunction

def count? : AggregateState → Option Int64
  | .count rows => some rows
  | .avg _ rows => some rows
  | _ => none

/-- What goes on after a step: the state, whatever was wrong, unless the program ended. -/
def survivor : Step → Except EvaluationFault AggregateState
  | (state, none) => .ok state
  | (state, some fault) => if fault.stops then .error fault else .ok state

/-- The state after partial states were merged one after the other. -/
def reduceAll (function : AggregateFunction) (partials : List Value) :
    Except EvaluationFault AggregateState :=
  partials.foldlM (fun state told => survivor (state.reduce function told)) (initial function)

inductive Counting : AggregateFunction → Int64 → AggregateState → Prop where
  | count {function : AggregateFunction} (keeps : function.KeepsCount) (rows : Int64) :
    Counting function rows (.count rows)
  | avg (sum : Double) (rows : Int64) : Counting .avg rows (.avg sum rows)

/-- What can come of merging a partial state into a count. -/
inductive Merged (function : AggregateFunction) (rows : Int64) (told : Value) : Step → Prop where
  | refused {after : AggregateState} (fault : EvaluationFault)
      (unread : function.countTold? told = none) (ordinary : fault.stops = false)
      (kept : Counting function rows after) : Merged function rows told (after, some fault)
  | added {after : AggregateState} (more : Int) (total : Int64)
      (read : function.countTold? told = some more) (exact : total.toInt = rows.toInt + more)
      (kept : Counting function total after) : Merged function rows told (after, none)
  | ended {after : AggregateState} (more : Int) (read : function.countTold? told = some more)
      (overflows : Long.ofInt? (rows.toInt + more) = none) (kept : Counting function rows after) :
    Merged function rows told (after, some .tallyOverflow)

variable {function : AggregateFunction} {rows : Int64} {state : AggregateState} {told : Value}
variable {seen : List Value}

theorem counting_initial (counts : function.CountsRows) : Counting function 0 (initial function) := by
  cases function with
  | countStar | count => exact .count (by trivial) 0
  | avg => exact .avg _ 0
  | _ => exact counts.elim

theorem Counting.count?_eq (counting : Counting function rows state) : state.count? = some rows := by
  cases counting <;> rfl

private theorem merged_tally {counted : Int64 → AggregateState} {more : Int64}
    (keeps : ∀ rows, Counting function rows (counted rows))
    (read : function.countTold? told = some more.toInt) :
    Merged function rows told (tally counted rows more) := by
  unfold tally
  cases fits : Long.ofInt? (rows.toInt + more.toInt) with
  | some total => exact .added _ total read (Long.ofInt?_eq_some fits).2 (keeps total)
  | none => exact .ended _ read fits (keeps rows)

private theorem merged_null (counting : Counting function rows state) :
    Merged function rows .null (state, none) := by
  have read : function.countTold? .null = some 0 := by
    cases function <;> rfl
  exact .added 0 rows read (Int.add_zero _).symm counting

theorem Counting.reduce (counting : Counting function rows state) (told : Value) :
    Merged function rows told (state.reduce function told) := by
  cases counting with
  | count keeps =>
    have read : function.countTold? = rowsTold? := by
      cases function <;> first | exact keeps.elim | rfl
    cases told with
    | null => exact merged_null (.count keeps rows)
    | long more => exact merged_tally (.count keeps) (by rw [read]; rfl)
    | bool | double | text | array | object =>
      exact .refused _ (by rw [read]; rfl) rfl (.count keeps rows)
  | avg total =>
    cases told with
    | null => exact merged_null (.avg total rows)
    | array parts =>
      rcases parts with _ | ⟨first, _ | ⟨second, _ | ⟨third, rest⟩⟩⟩
      case cons.cons.nil =>
        simp only [AggregateState.reduce]
        cases summed : first.double? with
        | none => exact .refused _ (by simp [countTold?, averagedTold?, summed]) rfl (.avg _ _)
        | some more =>
          cases counted : second.long? with
          | none => exact .refused _ (by simp [countTold?, averagedTold?, counted]) rfl (.avg _ _)
          | some further =>
            exact merged_tally (.avg _) (by simp [countTold?, averagedTold?, summed, counted])
      all_goals exact .refused _ rfl rfl (.avg total rows)
    | bool | long | double | text | object => exact .refused _ rfl rfl (.avg total rows)

private theorem reduceAll_concat (function : AggregateFunction) (seen : List Value) (told : Value) :
    reduceAll function (seen ++ [told]) =
      reduceAll function seen >>= fun state => survivor (state.reduce function told) := by
  simp [reduceAll]

theorem counting_reduceAll (counts : function.CountsRows) (survived : reduceAll function seen = .ok state) :
    ∃ rows, Counting function rows state ∧ rows.toInt = function.exactCount seen := by
  induction seen using List.reverseRecOn generalizing state with
  | nil =>
    obtain rfl : initial function = state := Except.ok.inj survived
    exact ⟨0, counting_initial counts, rfl⟩
  | append_singleton seen told ih =>
    rw [reduceAll_concat] at survived
    obtain ⟨before, earlier, here⟩ := ok_of_bind survived
    obtain ⟨rows, counting, exact⟩ := ih earlier
    have merged := counting.reduce told
    rw [exactCount_concat]
    generalize before.reduce function told = step at merged here
    cases merged with
    | refused fault unread ordinary kept =>
      simp only [survivor, ordinary] at here
      obtain rfl := Except.ok.inj here
      exact ⟨rows, kept, by rw [unread, exact]; exact (Int.add_zero _).symm⟩
    | added more total read sum kept =>
      obtain rfl := Except.ok.inj here
      exact ⟨total, kept, by rw [read, sum, exact]; rfl⟩
    | ended => cases here

/-- However many partial states were merged, the count is the exact sum of those that told one, and
the next one leaves three things to happen. It tells no count, which is a fault, and the count stays;
or the sum fits, and the count is the sum without a fault; or the sum does not fit, and the program
ends, without a count that is off. -/
theorem reduceAll_count (counts : function.CountsRows) (survived : reduceAll function seen = .ok state)
    (told : Value) :
    let step := state.reduce function told
    let exact := function.exactCount (seen ++ [told]);
    (∃ rows, state.count? = some rows ∧ rows.toInt = function.exactCount seen) ∧
      (function.countTold? told = none →
        ∃ fault, step.2 = some fault ∧ fault.stops = false ∧ step.1.count? = state.count?) ∧
      ((function.countTold? told).isSome = true → (Long.ofInt? exact).isSome = true →
        step.2 = none ∧ ∃ rows, step.1.count? = some rows ∧ rows.toInt = exact) ∧
      ((function.countTold? told).isSome = true → Long.ofInt? exact = none →
        step.2 = some .tallyOverflow ∧ EvaluationFault.tallyOverflow.stops = true ∧
          step.1.count? = state.count?) := by
  intro step exact
  obtain ⟨rows, counting, sum⟩ := counting_reduceAll counts survived
  refine ⟨⟨rows, counting.count?_eq, sum⟩, ?_⟩
  have total : exact = rows.toInt + (function.countTold? told).getD 0 := by
    rw [sum]
    exact exactCount_concat function seen told
  have merged : Merged function rows told step := counting.reduce told
  clear_value step
  rw [counting.count?_eq]
  cases merged with
  | refused fault unread ordinary kept =>
    rw [unread]
    exact ⟨fun _ => ⟨fault, rfl, ordinary, kept.count?_eq⟩, nofun, nofun⟩
  | added more after read fits kept =>
    rw [read] at total
    rw [read, show exact = after.toInt from total.trans fits.symm, Long.ofInt?_toInt]
    exact ⟨nofun, fun _ _ => ⟨rfl, after, kept.count?_eq, rfl⟩, nofun⟩
  | ended more read overflows kept =>
    rw [read] at total
    rw [read, show exact = rows.toInt + more from total, overflows]
    exact ⟨nofun, nofun, fun _ _ => ⟨rfl, rfl, kept.count?_eq⟩⟩

/-- Counts up to the greatest one, and a partial state in between that is none of an average. -/
theorem reduceAll_count_greatest :
    let seen : List Value :=
      [.array [.long 1, .long (-1)], .text "x", .array [.double (.zero true), .long Int64.maxValue]]
    let told : Value := .array [.long 2, .long 1]
    ∃ state, reduceAll .avg seen = .ok state ∧ (state.reduce .avg told).2 = none ∧
      ∃ rows, (state.reduce .avg told).1.count? = some rows ∧ rows.toInt = 0x7fffffffffffffff := by
  intro seen told
  have sum : AggregateFunction.avg.exactCount (seen ++ [told]) = 0x7fffffffffffffff := by decide +kernel
  have fits : (Long.ofInt? 0x7fffffffffffffff).isSome = true := by decide +kernel
  obtain ⟨state, survived⟩ : ∃ state, reduceAll .avg seen = .ok state := ⟨_, rfl⟩
  obtain ⟨-, -, exact, -⟩ := @reduceAll_count .avg _ seen trivial survived told
  rw [sum] at exact
  exact ⟨state, survived, exact rfl fits⟩

/-- One more than the greatest count ends the program, and no count is given, exact or not. -/
theorem not_reduceAll_count_exact :
    let seen : List Value := [.long Int64.maxValue]
    ∃ state, reduceAll .count seen = .ok state ∧
      (state.reduce .count (.long 1)).2 = some .tallyOverflow ∧
      EvaluationFault.tallyOverflow.stops = true ∧ state.count? = some Int64.maxValue ∧
      AggregateFunction.count.exactCount (seen ++ [.long 1]) = 0x8000000000000000 :=
  ⟨.count Int64.maxValue, rfl, rfl, rfl, rfl, by decide +kernel⟩

end AggregateState

end RowPipeline
