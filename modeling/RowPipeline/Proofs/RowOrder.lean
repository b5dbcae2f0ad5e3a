import RowPipeline.Proofs.Success
import RowPipeline.Proofs.ValueOrder

/-!
The order of rows that indices and flags ask for. It is a total preorder, in which the first column
where two rows differ decides; there, nulls have the place that their flag says, and the direction of
the column turns the order of all other cells and leaves the nulls where they are.
-/

namespace RowPipeline

/-- How a column has to order two cells that differ: a null by the flag for nulls, whatever the
direction is, and other cells up or down. -/
structure SortColumn.Places (reverse nullsFirst : Bool) (left right : Value) (outcome : Ordering) :
    Prop where
  null : left.isNull = true → outcome = if nullsFirst then .lt else .gt
  otherNull : right.isNull = true → outcome = if nullsFirst then .gt else .lt
  present : left.isNull = false → right.isNull = false →
    outcome = if reverse then right.compare left else left.compare right

namespace SortColumn

/-- Whatever its flags are, a column tells the same cells apart. -/
theorem compareCells_eq_iff (column : SortColumn) (left right : Value) :
    column.compareCells left right = .eq ↔ left.same right = true := by
  rw [Value.same_iff]
  unfold compareCells
  cases first : left.isNull <;> cases second : right.isNull
  case false.false =>
    cases column.reverse
    · rfl
    · rw [Value.compare_swap left right, Ordering.swap_eq_eq]
      rfl
  case true.true =>
    cases left <;> cases right <;> simp_all [Value.isNull, Value.compare]
  all_goals
    have different : left.compare right ≠ .eq := fun equal => by
      have nulls := Value.isNull_eq_of_same (Value.same_iff.mpr equal)
      rw [first, second] at nulls
      cases nulls
    cases column.nullsFirst <;> simp [different]

private theorem places_compareCells (column : SortColumn) {left right : Value}
    (different : left.same right = false) :
    Places column.reverse column.nullsFirst left right (column.compareCells left right) := by
  have apart : ¬ (left.isNull = true ∧ right.isNull = true) := by
    rintro ⟨first, second⟩
    cases left <;> cases right <;> simp_all [Value.isNull, Value.same, Value.compare]
  constructor <;> intro first
  · have second : right.isNull = false := by simpa [first] using apart
    simp [compareCells, first, second]
  · have second : left.isNull = false := by simpa [first] using apart
    simp [compareCells, first, second]
  · intro second
    simp [compareCells, first, second]

end SortColumn

namespace SortOrder

/-- Whether two rows have the same cells at some places. -/
def Agree (indices : List Nat) (left right : Row) : Prop :=
  ∀ index ∈ indices, (left.getD index .null).same (right.getD index .null) = true

private theorem compare_append (first second : SortOrder) (left right : Row) :
    compare (first ++ second) left right =
      (compare first left right).then (compare second left right) := by
  induction first with
  | nil => rfl
  | cons column rest ih => rw [List.cons_append, compare, compare, ih, Ordering.then_assoc]

private theorem compare_eq_iff (order : SortOrder) (left right : Row) :
    compare order left right = .eq ↔ Agree (order.map SortColumn.index) left right := by
  induction order with
  | nil => simp [compare, Agree]
  | cons column rest ih =>
    rw [compare, Ordering.then_eq_eq, ih, SortColumn.compare, SortColumn.compareCells_eq_iff]
    simp [Agree]

/-- A column with its flags, or with what stands for those that are not given. -/
def flagged (reverseFlags nullsFirst : List Bool) (position index : Nat) : SortColumn :=
  let reverse := reverseFlags.getD position false
  ⟨index, reverse, nullsFirst.getD position reverse⟩

variable {indices : List Nat} {reverseFlags nullsFirst : List Bool} {order : SortOrder}

private theorem map_index_flagged (indices : List Nat) (reverseFlags nullsFirst : List Bool) :
    (indices.mapIdx (flagged reverseFlags nullsFirst)).map SortColumn.index = indices :=
  List.ext_getElem (by simp) fun _ _ _ => by simp [flagged]

private theorem ofFlags_eq_ok (accepted : ofFlags indices reverseFlags nullsFirst = .ok order) :
    order = indices.mapIdx (flagged reverseFlags nullsFirst) := by
  obtain ⟨_, _, accepted⟩ := ok_of_bind accepted
  obtain ⟨_, _, accepted⟩ := ok_of_bind accepted
  obtain rfl := Except.ok.inj accepted
  refine List.ext_getElem (by simp) fun position bound _ => ?_
  rw [List.length_map, List.length_range] at bound
  simp [column, flagged, bound]

/-- Two rows that agree in the first columns are ordered by the next one if they differ in it. -/
theorem places_flagged {before after : List Nat} {index : Nat} {a b : Row} {left right : Value}
    (agree : Agree before a b) (first : a[index]? = some left) (second : b[index]? = some right)
    (different : left.same right = false) :
    let column := flagged reverseFlags nullsFirst before.length index
    SortColumn.Places column.reverse column.nullsFirst left right
      (compare ((before ++ index :: after).mapIdx (flagged reverseFlags nullsFirst)) a b) := by
  intro column
  have placed := column.places_compareCells different
  have decides (rest : Ordering) :
      (column.compareCells left right).then rest = column.compareCells left right := by
    cases outcome : column.compareCells left right with
    | eq =>
      rw [(column.compareCells_eq_iff left right).mp outcome] at different
      cases different
    | lt | gt => rfl
  have passed : compare (before.mapIdx (flagged reverseFlags nullsFirst)) a b = .eq := by
    rw [compare_eq_iff, map_index_flagged]
    exact agree
  have here : column.compare a b = column.compareCells left right := by
    simp [SortColumn.compare, column, flagged, first, second]
  rw [List.mapIdx_append, List.mapIdx_cons, Nat.zero_add, compare_append, passed, Ordering.eq_then,
    compare, here, decides]
  exact placed

/-- An order that is asked for by indices and flags is a total preorder of rows, for which rows are
equal that have the same cells in all columns. Of other rows the first column that differs decides,
by its flags; a column without a flag of its own has nulls first where its direction is reversed. -/
theorem flags_rank_rows (accepted : ofFlags indices reverseFlags nullsFirst = .ok order)
    (a b c : Row) :
    (order.compare b a = (order.compare a b).swap ∧
      ((order.compare a b).isLE = true ∨ (order.compare b a).isLE = true) ∧
      ((order.compare a b).isLE = true → (order.compare b c).isLE = true →
        (order.compare a c).isLE = true) ∧
      Equivalence fun left right => order.compare left right = .eq) ∧
    (order.compare a b = .eq ↔ Agree indices a b) ∧
    ∀ before index after left right, indices = before ++ index :: after → Agree before a b →
      a[index]? = some left → b[index]? = some right → left.same right = false →
        let reverse := reverseFlags.getD before.length false
        let nullsFirst := nullsFirst.getD before.length reverse
        SortColumn.Places reverse nullsFirst left right (order.compare a b) := by
  obtain rfl := ofFlags_eq_ok accepted
  refine ⟨⟨compare_swap _ b a, ?_, (compare_consistent _ a b c).isLE, ?_, ?_, ?_⟩, ?_, ?_⟩
  · rw [compare_swap _ b a]
    cases compare _ a b <;> simp
  · exact fun row => Std.ReflCmp.compare_self
  · exact Std.OrientedCmp.eq_symm
  · exact Std.TransCmp.eq_trans
  · rw [compare_eq_iff, map_index_flagged]
  · rintro before index after left right rfl agree first second different
    exact places_flagged agree first second different

/-- In a column that is reversed and has no flag for nulls these come first, and where they are asked
for at the end they come last. -/
theorem flags_rank_rows_nulls :
    let a : Row := [.null, .long 1]
    let b : Row := [.long 5, .double ⟨0x3ff0000000000000⟩]
    (∃ order, ofFlags [1, 0] [false, true] [] = .ok order ∧ order.compare a b = .lt) ∧
      ∃ order, ofFlags [1, 0] [false, true] [false, false] = .ok order ∧ order.compare a b = .gt := by
  intro a b
  have agree : Agree [1] a b := by
    simp [Agree, a, b]
    decide +kernel
  have different : Value.null.same (.long 5) = false := by decide +kernel
  have defaulted := @flags_rank_rows [1, 0] [false, true] [] _ rfl a b a
  have last := @flags_rank_rows [1, 0] [false, true] [false, false] _ rfl a b a
  exact ⟨⟨_, rfl, (defaulted.2.2 [1] 0 [] _ _ rfl agree rfl rfl different).null rfl⟩,
    _, rfl, (last.2.2 [1] 0 [] _ _ rfl agree rfl rfl different).null rfl⟩

end SortOrder

end RowPipeline
