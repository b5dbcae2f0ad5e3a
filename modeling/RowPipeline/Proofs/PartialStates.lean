import RowPipeline.Proofs.StageMeaning

/-!
Partial states stand for the rows that they were made of: a state that merges the partial state of
some rows is the state that goes over these rows itself. An average is left out, as its sum of
doubles depends on where the rows are split.
-/

namespace RowPipeline

/-! ### Choosing the better of two cells -/

namespace Value

/-- Of two cells the second only if it wins. -/
def better (wins : Value → Value → Bool) (current value : Value) : Value :=
  if wins value current then value else current

private theorem better_assoc {wins : Value → Value → Bool}
    (trans : ∀ a b c, wins a b = true → wins b c = true → wins a c = true)
    (holds : ∀ a b c, wins a b = false → wins b c = false → wins a c = false) (a b c : Value) :
    better wins (better wins a b) c = better wins a (better wins b c) := by
  unfold better
  cases second : wins b a <;> cases third : wins c b
  · have kept := holds c b a third second
    simp [second, kept]
  · simp
  · simp [second, third]
  · have taken := trans c b a third second
    simp [third, taken]

private theorem lesser_assoc (a b c : Value) :
    better (·.compare · == .lt) (better (·.compare · == .lt) a b) c =
      better (·.compare · == .lt) a (better (·.compare · == .lt) b c) := by
  refine better_assoc (fun a b c first second => ?_) (fun a b c first second => ?_) a b c
  · rw [beq_iff_eq] at *
    exact Std.TransCmp.lt_trans first second
  · rw [beq_eq_false_iff_ne, ne_eq, Ordering.ne_lt_iff_isGE] at *
    exact Std.TransCmp.isGE_trans first second

private theorem greater_assoc (a b c : Value) :
    better (·.compare · == .gt) (better (·.compare · == .gt) a b) c =
      better (·.compare · == .gt) a (better (·.compare · == .gt) b c) := by
  refine better_assoc (fun a b c first second => ?_) (fun a b c first second => ?_) a b c
  · rw [beq_iff_eq] at *
    exact Std.TransCmp.gt_trans first second
  · rw [beq_eq_false_iff_ne, ne_eq, Ordering.ne_gt_iff_isLE] at *
    exact Std.TransCmp.isLE_trans first second

end Value

/-! ### Adding to a count -/

namespace AggregateState

variable {counted : Int64 → AggregateState} {rows more : Int64} {after : AggregateState}

private theorem tally_of_fits (fits : (rows + more).toInt = rows.toInt + more.toInt) :
    tally counted rows more = (counted (rows + more), none) := by
  rw [tally, ← fits, Long.ofInt?_toInt]

/-- A count that goes on is the exact sum. -/
theorem eq_of_tally (taken : tally counted rows more = (after, none)) :
    after = counted (rows + more) ∧ (rows + more).toInt = rows.toInt + more.toInt := by
  unfold tally at taken
  split at taken
  · next total fits =>
    obtain rfl : counted total = after := congrArg Prod.fst taken
    obtain ⟨whole, exact⟩ := Long.ofInt?_eq_some fits
    rw [Int64.ofInt_add, Int64.ofInt_toInt, Int64.ofInt_toInt] at whole
    exact ⟨congrArg counted whole, whole ▸ exact⟩
  · cases taken

theorem tally_zero (rows : Int64) : tally counted rows 0 = (counted rows, none) := by
  have unchanged : rows + 0 = rows := Int64.add_zero rows
  rw [tally_of_fits (by rw [unchanged]; exact (Int.add_zero _).symm), unchanged]

end AggregateState

/-! ### Functions that remember a cell -/

namespace AggregateFunction

def KeepsCount : AggregateFunction → Prop
  | .countStar | .count => True
  | _ => False

def KeepsCell : AggregateFunction → Prop
  | .sum | .min | .max | .arbitrary => True
  | _ => False

/-- The cells that a function keeps without rounding: not nulls, and integers if they are added. -/
def Accepts (function : AggregateFunction) (cell : Value) : Prop :=
  cell ≠ .null ∧ (function = .sum → ∃ number, cell = .long number)

/-- The values that a row may give a function; nulls are passed over. -/
def Admits (function : AggregateFunction) (value : Option Value) : Prop :=
  ∀ cell, value = some cell → cell = .null ∨ function.Accepts cell

end AggregateFunction

namespace AggregateState

open AggregateFunction

/-- The state that keeps a cell. -/
def ofCell : AggregateFunction → Option Value → AggregateState
  | .sum, held => .sum held
  | .min, held => .min held
  | .max, held => .max held
  | _, held => .arbitrary held

/-- The cell that stands for two cells. -/
def join : AggregateFunction → Value → Value → Except EvaluationFault Value
  | .sum, current, cell => plus (some current) cell
  | .min, current, cell => .ok (Value.better (·.compare · == .lt) current cell)
  | .max, current, cell => .ok (Value.better (·.compare · == .gt) current cell)
  | _, current, _ => .ok current

theorem plus_long {left right : Int64} {total : Value}
    (added : plus (some (.long left)) (.long right) = .ok total) :
    ∃ sum : Int64, total = .long sum ∧ sum.toInt = left.toInt + right.toInt := by
  simp only [plus] at added
  split at added
  · next sum fits =>
    obtain rfl := Except.ok.inj added
    exact ⟨sum, rfl, (Long.ofInt?_eq_some fits).2⟩
  · cases added

variable {function : AggregateFunction} {first second third near far whole : Value}

private theorem accepts_join (left : function.Accepts first) (right : function.Accepts second)
    (joined : join function first second = .ok whole) : function.Accepts whole := by
  cases function with
  | sum =>
    obtain ⟨first, rfl⟩ := left.2 rfl
    obtain ⟨second, rfl⟩ := right.2 rfl
    obtain ⟨sum, rfl, _⟩ := plus_long joined
    exact ⟨Value.noConfusion, fun _ => ⟨sum, rfl⟩⟩
  | min | max =>
    obtain rfl := Except.ok.inj joined
    unfold Value.better
    split
    · exact right
    · exact left
  | _ =>
    obtain rfl := Except.ok.inj joined
    exact left

private theorem join_assoc (left : function.Accepts first) (middle : function.Accepts second)
    (right : function.Accepts third) (before : join function first second = .ok near)
    (after : join function second third = .ok far) :
    join function first far = join function near third := by
  cases function with
  | sum =>
    obtain ⟨first, rfl⟩ := left.2 rfl
    obtain ⟨second, rfl⟩ := middle.2 rfl
    obtain ⟨third, rfl⟩ := right.2 rfl
    obtain ⟨near, rfl, early⟩ := plus_long before
    obtain ⟨far, rfl, late⟩ := plus_long after
    simp only [join, plus, early, late, Int.add_assoc]
  | min =>
    obtain rfl := Except.ok.inj before
    obtain rfl := Except.ok.inj after
    exact congrArg _ (Value.lesser_assoc first second third).symm
  | max =>
    obtain rfl := Except.ok.inj before
    obtain rfl := Except.ok.inj after
    exact congrArg _ (Value.greater_assoc first second third).symm
  | _ => exact before

variable {held : Option Value} {current cell : Value} {state after : AggregateState}

theorem take_ofCell_none (keeps : function.KeepsCell) (accepts : function.Accepts cell) :
    (ofCell function none).take cell = (ofCell function (some cell), none) := by
  cases function with
  | sum =>
    obtain ⟨number, rfl⟩ := accepts.2 rfl
    rfl
  | min | max | arbitrary => rfl
  | _ => exact keeps.elim

theorem take_ofCell_some (keeps : function.KeepsCell) :
    (ofCell function (some current)).take cell =
      match join function current cell with
      | .ok more => (ofCell function (some more), none)
      | .error fault => (ofCell function none, some fault) := by
  cases function with
  | sum =>
    rw [ofCell, take, join]
    cases plus (some current) cell <;> rfl
  | min | max | arbitrary => rfl
  | _ => exact keeps.elim

theorem join_of_take (keeps : function.KeepsCell)
    (taken : (ofCell function (some current)).take cell = (after, none)) :
    ∃ more, join function current cell = .ok more ∧ after = ofCell function (some more) := by
  rw [take_ofCell_some keeps] at taken
  cases joined : join function current cell with
  | ok more =>
    rw [joined] at taken
    exact ⟨more, rfl, (congrArg Prod.fst taken).symm⟩
  | error fault =>
    rw [joined] at taken
    cases taken

theorem partialValue_ofCell : (ofCell function held).partialValue = held.getD .null := by
  cases function <;> rfl

theorem reduce_ofCell (keeps : function.KeepsCell) (present : cell ≠ .null) :
    (ofCell function held).reduce function cell = (ofCell function held).take cell := by
  cases function <;> first | exact keeps.elim | (cases cell <;> first | rfl | contradiction)

private theorem reduce_null : state.reduce function .null = (state, none) := by
  cases state <;> rfl

/-- A row gives a function that keeps cells nothing, or a cell to take. -/
theorem cell_cases {value : Option Value} (keeps : function.KeepsCell)
    (admits : function.Admits value) :
    (∀ state, iterate function value state = (state, none)) ∨
      ∃ cell, function.Accepts cell ∧ ∀ state, iterate function value state = state.take cell := by
  cases value with
  | none => exact .inl fun state => by cases function <;> first | rfl | exact keeps.elim
  | some cell =>
    rcases admits cell rfl with rfl | accepts
    · exact .inl fun state => by cases function <;> first | rfl | exact keeps.elim
    · refine .inr ⟨cell, accepts, fun state => ?_⟩
      have present := accepts.1
      cases function <;> first | exact keeps.elim | (cases cell <;> first | rfl | contradiction)

private theorem iterate_count (counts : function.KeepsCount) (value : Option Value) :
    ∃ more : Int64, ∀ total, iterate function value (.count total) = tally .count total more := by
  cases function with
  | countStar => exact ⟨1, fun _ => rfl⟩
  | count =>
    cases value with
    | none => exact ⟨0, fun total => (tally_zero total).symm⟩
    | some cell =>
      cases cell with
      | null => exact ⟨0, fun total => (tally_zero total).symm⟩
      | bool | long | double | text | array | object => exact ⟨1, fun _ => rfl⟩
  | _ => exact counts.elim

end AggregateState

/-! ### Merging -/

namespace AggregateState

open AggregateFunction

/-- The states that a function comes to without rounding; an average has none. -/
inductive Exact (function : AggregateFunction) : AggregateState → Prop where
  | count (counts : function.KeepsCount) (total : Int64) : Exact function (.count total)
  | cell (keeps : function.KeepsCell) (held : Option Value)
      (accepts : ∀ cell, held = some cell → function.Accepts cell) :
      Exact function (ofCell function held)

variable {function : AggregateFunction} {value : Option Value}
variable {start state state' merged merged' : AggregateState}

theorem exact_initial (mergeable : function ≠ .avg) : Exact function (initial function) := by
  cases function with
  | countStar | count => exact .count (by trivial) 0
  | avg => exact absurd rfl mergeable
  | sum | min | max | arbitrary => exact .cell (by trivial) none (by simp)

/-- The partial state of no rows changes nothing. -/
theorem reduce_initial (exact : Exact function start) :
    start.reduce function (initial function).partialValue = (start, none) := by
  cases exact with
  | count counts total =>
    cases function <;> first | exact counts.elim | exact tally_zero total
  | cell keeps _ _ =>
    have none : (initial function).partialValue = .null := by
      cases function <;> first | rfl | exact keeps.elim
    rw [none, reduce_null]

theorem iterate_exact (exact : Exact function state) (admits : function.Admits value)
    (next : state.iterate function value = (state', none)) : Exact function state' := by
  cases exact with
  | count counts total =>
    obtain ⟨more, iterated⟩ := iterate_count counts value
    rw [iterated] at next
    obtain ⟨rfl, _⟩ := eq_of_tally next
    exact .count counts (total + more)
  | cell keeps held accepted =>
    rcases cell_cases keeps admits with passed | ⟨cell, accepts, taken⟩
    · rw [passed] at next
      obtain rfl : _ = state' := congrArg Prod.fst next
      exact .cell keeps held accepted
    rw [taken] at next
    cases held with
    | none =>
      rw [take_ofCell_none keeps accepts] at next
      obtain rfl : _ = state' := congrArg Prod.fst next
      exact .cell keeps _ fun _ same => Option.some.inj same ▸ accepts
    | some current =>
      obtain ⟨more, joined, rfl⟩ := join_of_take keeps next
      have whole := accepts_join (accepted current rfl) accepts joined
      exact .cell keeps _ fun _ same => Option.some.inj same ▸ whole

/-- Cells are merged as they are taken. -/
theorem reduce_take {first second : Option Value} {cell : Value} (keeps : function.KeepsCell)
    (accepts : function.Accepts cell) (accepted : ∀ cell, second = some cell → function.Accepts cell)
    (held : ∀ cell, first = some cell → function.Accepts cell)
    (reduced : (ofCell function first).reduce function (second.getD .null) = (merged, none))
    (next : (ofCell function second).take cell = (state', none))
    (direct : merged.take cell = (merged', none)) :
    (ofCell function first).reduce function state'.partialValue = (merged', none) := by
  cases second with
  | none =>
    rw [Option.getD_none, reduce_null] at reduced
    obtain rfl : _ = merged := congrArg Prod.fst reduced
    rw [take_ofCell_none keeps accepts] at next
    obtain rfl : _ = state' := congrArg Prod.fst next
    rw [partialValue_ofCell, Option.getD_some, reduce_ofCell keeps accepts.1, direct]
  | some second =>
    -- Three cells are joined in either order: those of both sides, and then the one more.
    have middle := accepted second rfl
    rw [Option.getD_some, reduce_ofCell keeps middle.1] at reduced
    obtain ⟨far, after, rfl⟩ := join_of_take keeps next
    have whole := accepts_join middle accepts after
    rw [partialValue_ofCell, Option.getD_some, reduce_ofCell keeps whole.1]
    cases first with
    | none =>
      rw [take_ofCell_none keeps middle] at reduced
      obtain rfl : _ = merged := congrArg Prod.fst reduced
      rw [take_ofCell_none keeps whole, ← next, direct]
    | some first =>
      obtain ⟨near, before, rfl⟩ := join_of_take keeps reduced
      rw [take_ofCell_some keeps, join_assoc (held first rfl) middle accepts before after,
        ← take_ofCell_some keeps, direct]

/-- Merging the partial state of some rows and going over one more row comes to the same as merging
the partial state of all of them. -/
theorem reduce_iterate (exact : Exact function start) (partly : Exact function state)
    (admits : function.Admits value)
    (reduced : start.reduce function state.partialValue = (merged, none))
    (next : state.iterate function value = (state', none))
    (direct : merged.iterate function value = (merged', none)) :
    start.reduce function state'.partialValue = (merged', none) := by
  cases partly with
  | count counts total =>
    obtain ⟨more, iterated⟩ := iterate_count counts value
    cases exact with
    | cell keeps _ _ => cases function <;> first | exact counts.elim | exact keeps.elim
    | count _ base =>
      -- The count of all rows fits, so that it does not matter which two of the three are added first.
      obtain ⟨rfl, before⟩ := eq_of_tally reduced
      rw [iterated] at next direct
      obtain ⟨rfl, after⟩ := eq_of_tally next
      obtain ⟨rfl, all⟩ := eq_of_tally direct
      rw [Int64.add_assoc] at all ⊢
      exact tally_of_fits (by rw [all, before, after, Int.add_assoc])
  | cell keeps second accepted =>
    cases exact with
    | count counts _ => cases function <;> first | exact counts.elim | exact keeps.elim
    | cell _ first held =>
      rcases cell_cases keeps admits with passed | ⟨cell, accepts, taken⟩
      · rw [passed] at next direct
        obtain rfl : _ = state' := congrArg Prod.fst next
        obtain rfl : _ = merged' := congrArg Prod.fst direct
        exact reduced
      · rw [taken] at next direct
        rw [partialValue_ofCell] at reduced
        exact reduce_take keeps accepts accepted held reduced next direct

end AggregateState

end RowPipeline
