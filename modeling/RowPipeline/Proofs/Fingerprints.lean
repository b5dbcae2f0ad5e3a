import RowPipeline.Proofs.Doubles
import RowPipeline.Proofs.ValueOrder
import RowPipeline.Value.Fingerprint

/-!
What a hash function is fed with agrees with the order of cells. Cells that the order does not tell
apart are written alike, whatever numbers they are made of, and so are keys of several cells.
-/

namespace RowPipeline

theorem Long.ofInt?_toInt (value : Int64) : Long.ofInt? value.toInt = some value := by
  have least := value.le_toInt
  have greatest := value.toInt_lt
  unfold Long.ofInt?
  rw [if_pos (by simp only [Bool.and_eq_true, decide_eq_true_eq]; omega), Int64.ofInt_toInt]

theorem Long.ofInt?_eq_some {whole : Int} {value : Int64} (fits : Long.ofInt? whole = some value) :
    value = Int64.ofInt whole ∧ value.toInt = whole := by
  unfold Long.ofInt? at fits
  split at fits
  · next bounds =>
    simp only [Bool.and_eq_true, decide_eq_true_eq] at bounds
    obtain rfl := Option.some.inj fits
    exact ⟨rfl, Int64.toInt_ofInt_of_le bounds.1 bounds.2⟩
  · cases fits

namespace Double

variable {number : Double}

/-- A double at the place of an integer is that integer. -/
theorem toInt?_of_position {whole : Int} (place : number.position = (0, whole * one)) :
    number.toInt? = some whole := by
  obtain ⟨finite, units⟩ := isFinite_of_position place
  have positive := one_pos
  rw [toInt?, finite, units, Int.mul_emod_left, Int.mul_ediv_cancel _ (by omega)]
  rfl

private theorem toInt?_of_isNaN (nan : number.isNaN = true) : number.toInt? = none := by
  rw [toInt?, isFinite_of_isNaN nan]
  rfl

end Double

namespace Value

/-- A double at the place of an integer is written as the integer. -/
theorem hashWrites_of_position_long {number : Double} {whole : Int64}
    (place : number.position = (0, whole.toInt * Double.one)) :
    (Value.double number).hashWrites = (Value.long whole).hashWrites := by
  simp only [hashWrites, exactLong?, Double.toInt?_of_position place, Option.bind_some,
    Long.ofInt?_toInt]

/-- Doubles at one place are written alike. -/
theorem hashWrites_of_position {left right : Double} (same : left.position = right.position) :
    (Value.double left).hashWrites = (Value.double right).hashWrites := by
  rcases Double.eq_of_position_eq same with rfl | ⟨zero, zero'⟩ | ⟨nan, nan'⟩
  · rfl
  · have place : left.position = (0, (0 : Int64).toInt * Double.one) :=
      Double.position_of_isZero zero
    rw [hashWrites_of_position_long place, hashWrites_of_position_long (same ▸ place)]
  · simp only [hashWrites, exactLong?, Double.toInt?_of_isNaN nan, Double.toInt?_of_isNaN nan',
      Double.normalizedBits, nan, nan', Option.bind_none, if_true]

private theorem rank_eq_of_compare {left right : Value} (same : left.compare right = .eq) :
    left.rank = right.rank := by
  rw [compare_eq_rank_then, Ordering.then_eq_eq, Nat.compare_eq_eq] at same
  exact same.1

mutual

theorem hashWrites_of_compare {left right : Value} (same : left.compare right = .eq) :
    left.hashWrites = right.hashWrites := by
  have ranks := rank_eq_of_compare same
  cases left <;> cases right <;> simp only [rank, reduceCtorEq, Nat.reduceEqDiff] at ranks
  all_goals
    simp only [compare, rank, compareLongDouble_eq, Double.comparePatterns_normalized,
      ← Double.comparePositions_swap, Double.comparePositions_eq_iff] at same
  case null.null => rfl
  case bool.bool => rw [Std.LawfulEqOrd.eq_of_compare same]
  case text.text => rw [Std.LawfulEqOrd.eq_of_compare same]
  case long.long => rw [Int64.toInt_inj.mp (Int.compare_eq_eq.mp same)]
  case long.double => exact (hashWrites_of_position_long same.symm).symm
  case double.long => exact hashWrites_of_position_long same
  case double.double => exact hashWrites_of_position same
  case array.array =>
    obtain ⟨lengths, writes⟩ := hashItems_of_compareItems same
    rw [hashWrites, hashWrites, lengths, writes]
  case object.object => rw [hashWrites, hashWrites, hashFields_of_compareFields same]

theorem hashItems_of_compareItems {left right : List Value} (same : compareItems left right = .eq) :
    left.length = right.length ∧ hashItems left = hashItems right := by
  cases left <;> cases right <;> simp only [compareItems, reduceCtorEq] at same
  · exact ⟨rfl, rfl⟩
  · obtain ⟨first, rest⟩ := Ordering.then_eq_eq.mp same
    obtain ⟨lengths, others⟩ := hashItems_of_compareItems rest
    rw [hashItems, hashItems, hashWrites_of_compare first, others]
    exact ⟨congrArg (· + 1) lengths, rfl⟩

private theorem hashField_of_compareField {left right : String × Value}
    (same : compareField left right = .eq) : hashField left = hashField right := by
  cases left
  cases right
  rw [compareField, Ordering.then_eq_eq] at same
  rw [hashField, hashField, hashWrites_of_compare same.2, Std.LawfulEqOrd.eq_of_compare same.1]

private theorem hashFields_of_compareFields {left right : List (String × Value)}
    (same : compareFields left right = .eq) : hashFields left = hashFields right := by
  cases left <;> cases right <;> simp only [compareFields, reduceCtorEq] at same
  · rfl
  · obtain ⟨first, rest⟩ := Ordering.then_eq_eq.mp same
    rw [hashFields, hashFields, hashField_of_compareField first, hashFields_of_compareFields rest]

end

end Value

namespace Row

/-- What a hash function is fed with for a key: the number of its cells, then each of them. -/
def hashWrites (row : Row) : List HashWrite := .length row.length :: Value.hashItems row

private theorem hashWrites_of_same {left right : Row} (same : left.same right = true) :
    left.hashWrites = right.hashWrites := by
  obtain ⟨lengths, items⟩ := Value.hashItems_of_compareItems (same_iff.mp same)
  rw [hashWrites, hashWrites, lengths, items]

end Row

namespace Value

/-- Cells that the order does not tell apart feed a hash function with the same writes, and so do keys
made of such cells. -/
theorem hashWrites_respect_order :
    (∀ left right : Value, left.compare right = .eq → left.hashWrites = right.hashWrites) ∧
      ∀ left right : Row, left.same right = true → left.hashWrites = right.hashWrites :=
  ⟨fun _ _ => hashWrites_of_compare, fun _ _ => Row.hashWrites_of_same⟩

/-- The integer 2 to the power 53 and the double, two NaNs, and zeros of three kinds in objects. -/
theorem hashWrites_respect_order_nested :
    let left : Value := .array
      [.long 0x20000000000000, .double ⟨0x7ff8000000000000⟩,
        .object [("a", .double ⟨0x8000000000000000⟩), ("b", .long 0)]]
    let right : Value := .array
      [.double ⟨0x4340000000000000⟩, .double ⟨0xfff0000000000001⟩,
        .object [("a", .long 0), ("b", .double ⟨0⟩)]]
    (left.compare right = .eq ∧ left.hashWrites = right.hashWrites) ∧
      Row.same [left, right] [right, left] = true ∧
        Row.hashWrites [left, right] = Row.hashWrites [right, left] := by
  intro left right
  have same : left.compare right = .eq := by decide +kernel
  have same' : Row.same [left, right] [right, left] = true := by decide +kernel
  exact ⟨⟨same, hashWrites_respect_order.1 left right same⟩, same',
    hashWrites_respect_order.2 _ _ same'⟩

end Value

end RowPipeline
