import RowPipeline.Proofs.NumberOrder
import RowPipeline.SortOrder

/-!
The order of cells is a total preorder, whatever the cells are and however deep they are nested.
Being the same is an equivalence for it, and so it is for rows.
-/

namespace RowPipeline

/-- The outcomes of comparing a first thing with a second, the second with a third, and the first
with the third, as far as an order allows them together. -/
structure Consistent (near far whole : Ordering) : Prop where
  left : near = .eq → whole = far
  right : far = .eq → whole = near
  both : near = far → whole = near

namespace Consistent

variable {near far whole near' far' whole' : Ordering}

theorem of_trans {α : Type} {cmp : α → α → Ordering} [Std.TransCmp cmp] (a b c : α) :
    Consistent (cmp a b) (cmp b c) (cmp a c) where
  left := Std.TransCmp.congr_left
  right same := (Std.TransCmp.congr_right same).symm
  both same := by
    cases near : cmp a b with
    | lt => exact Std.TransCmp.lt_trans near (same ▸ near)
    | eq => exact (Std.TransCmp.congr_left near).trans (same ▸ near)
    | gt => exact Std.TransCmp.gt_trans near (same ▸ near)

theorem isLE (consistent : Consistent near far whole) (first : near.isLE) (second : far.isLE) :
    whole.isLE := by
  cases near <;> cases far <;>
    simp_all [consistent.left, consistent.right, consistent.both]

/-- A second criterion counts only where the first one decides nothing. -/
theorem andThen (first : Consistent near far whole)
    (second : near = .eq → far = .eq → Consistent near' far' whole') :
    Consistent (near.then near') (far.then far') (whole.then whole') := by
  have left := first.left
  have right := first.right
  have both := first.both
  cases near <;> cases far
  case eq.eq =>
    rw [left rfl]
    exact second rfl rfl
  all_goals
    constructor <;> intro equal <;> simp_all
  all_goals
    subst equal
    rfl

theorem swap (consistent : Consistent near far whole) :
    Consistent near.swap far.swap whole.swap := by
  cases near <;> cases far <;> constructor <;>
    simp_all [consistent.left, consistent.right, consistent.both]

end Consistent

private theorem Double.comparePositions_consistent (a b c : Int × Int) :
    Consistent (comparePositions a b) (comparePositions b c) (comparePositions a c) :=
  (Consistent.of_trans a.1 b.1 c.1).andThen fun _ _ => .of_trans a.2 b.2 c.2

namespace Value

private theorem compare_of_rank_ne {left right : Value} (different : left.rank ≠ right.rank) :
    left.compare right = Ord.compare left.rank right.rank := by
  cases left <;> cases right <;> simp_all [compare, rank]

theorem compare_eq_rank_then (left right : Value) :
    left.compare right = (Ord.compare left.rank right.rank).then (left.compare right) := by
  by_cases same : left.rank = right.rank
  · simp [same]
  · rw [compare_of_rank_ne same]
    cases Ord.compare left.rank right.rank <;> rfl

mutual

theorem compare_swap (left right : Value) : left.compare right = (right.compare left).swap := by
  cases left <;> cases right <;> simp only [compare, rank]
  case array.array => exact compareItems_swap _ _
  case object.object => exact compareFields_swap _ _
  case long.double => exact Ordering.swap_swap.symm
  case double.double =>
    rw [Double.comparePatterns_normalized, Double.comparePositions_swap,
      Double.comparePatterns_normalized]
  all_goals exact Std.OrientedOrd.eq_swap

theorem compareItems_swap (left right : List Value) :
    compareItems left right = (compareItems right left).swap := by
  cases left <;> cases right <;> simp only [compareItems, Ordering.swap_then]
  case cons.cons => rw [compare_swap, compareItems_swap]
  all_goals rfl

private theorem compareField_swap (left right : String × Value) :
    compareField left right = (compareField right left).swap := by
  cases left
  cases right
  simp only [compareField, Ordering.swap_then]
  rw [compare_swap, ← Std.OrientedOrd.eq_swap]

private theorem compareFields_swap (left right : List (String × Value)) :
    compareFields left right = (compareFields right left).swap := by
  cases left <;> cases right <;> simp only [compareFields, Ordering.swap_then]
  case cons.cons => rw [compareField_swap, compareFields_swap]
  all_goals rfl

end

mutual

theorem compare_consistent (a b c : Value) :
    Consistent (a.compare b) (b.compare c) (a.compare c) := by
  rw [compare_eq_rank_then a b, compare_eq_rank_then b c, compare_eq_rank_then a c]
  apply (Consistent.of_trans a.rank b.rank c.rank).andThen
  intro near far
  rw [Nat.compare_eq_eq] at near far
  -- Only cells of one rank are left to compare.
  cases a <;> cases b <;> simp only [rank, reduceCtorEq, Nat.reduceEqDiff] at near
  all_goals cases c <;> simp only [rank, reduceCtorEq, Nat.reduceEqDiff] at far
  all_goals
    simp only [compare, rank, compare_toInt, compareLongDouble_eq, Double.comparePatterns_normalized,
      ← Double.comparePositions_swap]
  case array.array.array => exact compareItems_consistent _ _ _
  case object.object.object => exact compareFields_consistent _ _ _
  all_goals
    first
    | exact Double.comparePositions_consistent _ _ _
    | exact .of_trans _ _ _

theorem compareItems_consistent (a b c : List Value) :
    Consistent (compareItems a b) (compareItems b c) (compareItems a c) := by
  cases a <;> cases b <;> cases c <;> simp only [compareItems]
  case cons.cons.cons =>
    exact (compare_consistent _ _ _).andThen fun _ _ => compareItems_consistent _ _ _
  all_goals constructor <;> simp_all

private theorem compareField_consistent (a b c : String × Value) :
    Consistent (compareField a b) (compareField b c) (compareField a c) := by
  cases a
  cases b
  cases c
  simp only [compareField]
  exact (Consistent.of_trans _ _ _).andThen fun _ _ => compare_consistent _ _ _

private theorem compareFields_consistent (a b c : List (String × Value)) :
    Consistent (compareFields a b) (compareFields b c) (compareFields a c) := by
  cases a <;> cases b <;> cases c <;> simp only [compareFields]
  case cons.cons.cons =>
    exact (compareField_consistent _ _ _).andThen fun _ _ => compareFields_consistent _ _ _
  all_goals constructor <;> simp_all

end

instance : Std.OrientedCmp compare := ⟨compare_swap _ _⟩

instance : Std.TransCmp compare := ⟨(compare_consistent _ _ _).isLE⟩

instance : Std.OrientedCmp compareItems := ⟨compareItems_swap _ _⟩

instance : Std.TransCmp compareItems := ⟨(compareItems_consistent _ _ _).isLE⟩

theorem same_iff {left right : Value} : left.same right = true ↔ left.compare right = .eq :=
  beq_iff_eq

/-- Null is equal to null only. -/
theorem isNull_eq_of_same {left right : Value} (same : left.same right = true) :
    left.isNull = right.isNull := by
  rw [same_iff] at same
  cases left <;> cases right <;> first | rfl | simp [compare, rank] at same

private theorem same_equivalence : Equivalence fun left right : Value => left.same right = true where
  refl _ := same_iff.mpr Std.ReflCmp.compare_self
  symm same := same_iff.mpr (Std.OrientedCmp.eq_symm (same_iff.mp same))
  trans first second := same_iff.mpr (Std.TransCmp.eq_trans (same_iff.mp first) (same_iff.mp second))

/-- Any two cells can be compared, either way with the same outcome, and the comparisons of three
cells fit together. Cells that are the same compare alike with every other cell. -/
theorem compare_totalPreorder (a b c : Value) :
    b.compare a = (a.compare b).swap ∧
      ((a.compare b).isLE = true ∨ (b.compare a).isLE = true) ∧
      ((a.compare b).isLE = true → (b.compare c).isLE = true → (a.compare c).isLE = true) ∧
      (a.compare b = .eq → a.compare c = b.compare c ∧ c.compare a = c.compare b) ∧
      Equivalence fun left right : Value => left.same right = true := by
  refine ⟨compare_swap b a, ?_, (compare_consistent a b c).isLE, fun equal => ⟨?_, ?_⟩,
    same_equivalence⟩
  · rw [compare_swap b a]
    cases a.compare b <;> decide
  · exact Std.TransCmp.congr_left equal
  · exact Std.TransCmp.congr_right equal

/-- The integer 2 to the power 53 is the same as the double, inside an array and before NaN, although
the next integer rounds to that double as well. -/
theorem compare_totalPreorder_nested :
    let a : Value := .array [.long 0x20000000000000, .object [("x", .double Double.nan)]]
    let b : Value := .array [.double ⟨0x4340000000000000⟩, .object [("x", .double ⟨0xfff8000000000000⟩)]]
    let c : Value := .array [.long 0x20000000000001]
    (a.compare b = .eq ∧ (b.compare c).isLE = true) ∧
      (a.compare c).isLE = true ∧ a.compare c = b.compare c ∧ c.compare a = c.compare b := by
  intro a b c
  have equal : a.compare b = .eq := by decide +kernel
  have less : (b.compare c).isLE = true := by decide +kernel
  obtain ⟨_, _, trans, congr, _⟩ := compare_totalPreorder a b c
  have first : (a.compare b).isLE = true := by rw [equal]; rfl
  exact ⟨⟨equal, less⟩, trans first less, congr equal⟩

end Value

namespace Row

theorem same_iff {left right : Row} :
    left.same right = true ↔ Value.compareItems left right = .eq := by
  simp [same]

@[simp]
theorem same_refl (row : Row) : row.same row = true :=
  same_iff.mpr Std.ReflCmp.compare_self

theorem same_comm (left right : Row) : left.same right = right.same left := by
  simp only [same, Value.compareItems_swap left right]
  cases Value.compareItems right left <;> rfl

/-- Rows that are the same are the same as the same rows. -/
theorem same_congr {left right : Row} (equal : left.same right = true) (other : Row) :
    left.same other = right.same other := by
  simp only [same, Std.TransCmp.congr_left (same_iff.mp equal)]

end Row

namespace SortColumn

private theorem compareCells_swap (column : SortColumn) (left right : Value) :
    column.compareCells left right = (column.compareCells right left).swap := by
  unfold compareCells
  cases left.isNull <;> cases right.isNull
  case false.false =>
    cases column.reverse
    · exact Value.compare_swap left right
    · exact Value.compare_swap right left
  all_goals cases column.nullsFirst <;> rfl

private theorem compareCells_consistent (column : SortColumn) (a b c : Value) :
    Consistent (column.compareCells a b) (column.compareCells b c) (column.compareCells a c) := by
  unfold compareCells
  cases a.isNull <;> cases b.isNull <;> cases c.isNull
  case false.false.false =>
    cases column.reverse
    · exact Value.compare_consistent a b c
    · rw [Value.compare_swap b a, Value.compare_swap c b, Value.compare_swap c a]
      exact (Value.compare_consistent a b c).swap
  all_goals
    cases column.nullsFirst <;> constructor <;> intro same <;>
      first
      | exact same.symm
      | simp_all

end SortColumn

namespace SortOrder

variable (order : SortOrder)

theorem compare_swap (left right : Row) :
    compare order left right = (compare order right left).swap := by
  induction order with
  | nil => rfl
  | cons column rest ih =>
    simp only [compare, SortColumn.compare, Ordering.swap_then, ← ih,
      ← SortColumn.compareCells_swap]

theorem compare_consistent (a b c : Row) :
    Consistent (compare order a b) (compare order b c) (compare order a c) := by
  induction order with
  | nil => exact ⟨fun _ => rfl, fun _ => rfl, fun _ => rfl⟩
  | cons column rest ih =>
    exact (column.compareCells_consistent _ _ _).andThen fun _ _ => ih

instance : Std.OrientedCmp (compare order) := ⟨compare_swap order _ _⟩

instance : Std.TransCmp (compare order) := ⟨(compare_consistent order _ _ _).isLE⟩

theorem le_eq_isLE (left right : Row) : le order left right = (compare order left right).isLE := by
  unfold le
  cases compare order left right <;> rfl

theorem le_trans (a b c : Row) (first : le order a b = true) (second : le order b c = true) :
    le order a c = true := by
  rw [le_eq_isLE] at *
  exact Std.TransCmp.isLE_trans first second

theorem le_total (left right : Row) : (le order left right || le order right left) = true := by
  rw [le_eq_isLE, le_eq_isLE, compare_swap order right left]
  cases compare order left right <;> rfl

theorem compare_eq_lt_iff (left right : Row) :
    compare order left right = .lt ↔ le order right left = false := by
  rw [le_eq_isLE, compare_swap order right left]
  cases compare order left right <;> simp

end SortOrder

end RowPipeline
