import RowPipeline.Proofs.CellTexts
import RowPipeline.Proofs.ValueOrder
import RowPipeline.Proofs.WholeNumbers

/-!
Texts of cells that are the same. Equal cells are written as one text if the numbers in them have the
same types and zeros the same signs, and as JSON only then. A cell that is shown as it is may be an
integer or the double equal to it, as long as the integer is small.
-/

namespace RowPipeline

private theorem Double.eq_of_isZero {left right : Double} (zero : left.isZero = true)
    (zero' : right.isZero = true) (sign : left.isNegative = right.isNegative) : left = right := by
  obtain ⟨exponent, fraction⟩ :=
    fields_of_magnitude_eq ((magnitude_of_isZero zero).trans (magnitude_of_isZero zero').symm)
  exact eq_of_fields sign exponent fraction

/-- Documents are told apart by their texts. -/
theorem Json.text_inj {left right : Json} (readable : left.IsReadable) (readable' : right.IsReadable) :
    left.text = right.text ↔ left = right := by
  refine ⟨fun same => ?_, congrArg text⟩
  have render : left.render = right.render := String.ofList_injective same
  have read := readValue_render readable (Nat.le_max_left _ right.height) endsNumber_nil
  have read' := readValue_render readable' (Nat.le_max_right left.height _) endsNumber_nil
  rw [render, read'] at read
  exact (congrArg Prod.fst (Option.some.inj read)).symm

namespace Value

mutual

/-- Whether the numbers of equal cells have the same types, and zeros the same signs. -/
def alike : Value → Value → Bool
  | .long _, .double _ => false
  | .double _, .long _ => false
  | .double left, .double right =>
    !(left.isZero && right.isZero) || left.isNegative == right.isNegative
  | .array left, .array right => itemsAlike left right
  | .object left, .object right => fieldsAlike left right
  | _, _ => true
termination_by structural left => left

def itemsAlike : List Value → List Value → Bool
  | left :: lefts, right :: rights => alike left right && itemsAlike lefts rights
  | _, _ => true
termination_by structural left => left

def fieldAlike : String × Value → String × Value → Bool
  | (_, left), (_, right) => alike left right
termination_by structural left => left

def fieldsAlike : List (String × Value) → List (String × Value) → Bool
  | left :: lefts, right :: rights => fieldAlike left right && fieldsAlike lefts rights
  | _, _ => true
termination_by structural left => left

end

/-- Whether an integer and the double equal to it are shown the same. From 2 to the power 53 up the
double may be shown as a neighbour of it that has fewer digits. -/
def wholeAlike (long : Int64) (number : Double) : Bool :=
  (long.toInt.natAbs < Double.wholeBound ||
      (Decimal.shortest .away number).writes long.toInt.natAbs) &&
    !(number.isZero && number.isNegative)

/-- Whether equal cells are alike as far as it shows. -/
def shownAlike : Value → Value → Bool
  | .long whole, .double number => wholeAlike whole number
  | .double number, .long whole => wholeAlike whole number
  | left, right => alike left right

/-! ### Documents -/

private theorem toJson_double_eq_iff {left right : Double}
    (same : compare (.double left) (.double right) = .eq) :
    toJson (.double left) = toJson (.double right) ↔ alike (.double left) (.double right) = true := by
  rw [compare, Double.comparePatterns_normalized, Double.comparePositions_eq_iff] at same
  rw [toJson, toJson, alike]
  rcases Double.eq_of_position_eq same with rfl | ⟨zero, zero'⟩ | ⟨isNaN, isNaN'⟩
  · simp
  · rw [if_pos (Double.isFinite_of_isZero zero), if_pos (Double.isFinite_of_isZero zero'), zero, zero']
    simp only [Json.number.injEq, JsonNumber.double.injEq, Bool.and_self, Bool.not_true,
      Bool.false_or, beq_iff_eq]
    exact ⟨fun equal => congrArg _ equal, Double.eq_of_isZero zero zero'⟩
  · have none : left.isZero = false := by simp [Double.isZero, Double.isFinite_of_isNaN isNaN]
    simp [Double.isFinite_of_isNaN isNaN, Double.isFinite_of_isNaN isNaN', none]

private theorem toJson_long_ne_double (long : Int64) (number : Double) :
    toJson (.long long) ≠ toJson (.double number) := by
  rw [toJson, toJson]
  split <;> simp [Json.integer]

mutual

/-- Equal cells are the same document if they are alike, and only then. -/
theorem toJson_eq_iff {left right : Value} (same : left.compare right = .eq) :
    left.toJson = right.toJson ↔ left.alike right = true := by
  cases left <;> cases right <;> try (simp [compare, rank] at same; done)
  case null.null => exact iff_of_true rfl rfl
  case bool.bool | text.text =>
    rw [compare, Std.LawfulEqOrd.compare_eq_iff_eq] at same
    exact iff_of_true (same ▸ rfl) rfl
  case long.long =>
    rw [compare, Int.compare_eq_eq] at same
    exact iff_of_true (by rw [toJson, toJson, same]) rfl
  case long.double => exact iff_of_false (toJson_long_ne_double _ _) Bool.false_ne_true
  case double.long => exact iff_of_false (toJson_long_ne_double _ _).symm Bool.false_ne_true
  case double.double => exact toJson_double_eq_iff same
  case array.array =>
    rw [compare] at same
    rw [toJson, toJson, alike, Json.array.injEq]
    exact itemsToJson_eq_iff same
  case object.object =>
    rw [compare] at same
    rw [toJson, toJson, alike, Json.object.injEq]
    exact fieldsToJson_eq_iff same

theorem itemsToJson_eq_iff {left right : List Value} (same : compareItems left right = .eq) :
    itemsToJson left = itemsToJson right ↔ itemsAlike left right = true := by
  cases left <;> cases right <;> try (simp [compareItems] at same; done)
  case nil.nil => exact iff_of_true rfl rfl
  case cons.cons =>
    rw [compareItems, Ordering.then_eq_eq] at same
    rw [itemsToJson, itemsToJson, itemsAlike, List.cons.injEq, Bool.and_eq_true,
      toJson_eq_iff same.1, itemsToJson_eq_iff same.2]

private theorem fieldsToJson_eq_iff {left right : List (String × Value)}
    (same : compareFields left right = .eq) :
    fieldsToJson left = fieldsToJson right ↔ fieldsAlike left right = true := by
  cases left <;> cases right <;> try (simp [compareFields] at same; done)
  case nil.nil => exact iff_of_true rfl rfl
  case cons.cons =>
    rename_i first lefts first' rights
    obtain ⟨name, value⟩ := first
    obtain ⟨name', value'⟩ := first'
    rw [compareFields, compareField, Ordering.then_eq_eq, Ordering.then_eq_eq,
      Std.LawfulEqOrd.compare_eq_iff_eq] at same
    rw [fieldsToJson, fieldsToJson, fieldToJson, fieldToJson, fieldsAlike, fieldAlike, List.cons.injEq,
      Prod.mk.injEq, Bool.and_eq_true, toJson_eq_iff same.1.2, fieldsToJson_eq_iff same.2]
    simp [same.1.1]

end

/-! ### Texts -/

/-- Lists of equal cells are written as one text if they are alike, and only then. -/
theorem listText_eq_iff {left right : List Value} (same : compareItems left right = .eq) :
    listText left = listText right ↔ itemsAlike left right = true := by
  have readable (cells : List Value) : (Json.array (itemsToJson cells)).IsReadable :=
    itemsReadable_itemsToJson cells
  rw [listText, listText, Json.text_inj (readable left) (readable right), Json.array.injEq,
    itemsToJson_eq_iff same]

private theorem displayText_eq_of_alike {left right : Double}
    (same : compare (.double left) (.double right) = .eq)
    (agree : alike (.double left) (.double right) = true) : left.displayText = right.displayText := by
  rw [compare, Double.comparePatterns_normalized, Double.comparePositions_eq_iff] at same
  rcases Double.eq_of_position_eq same with rfl | ⟨zero, zero'⟩ | ⟨isNaN, isNaN'⟩
  · rfl
  · rw [alike, zero, zero', Bool.and_self, Bool.not_true, Bool.false_or, beq_iff_eq] at agree
    rw [Double.eq_of_isZero zero zero' agree]
  · simp [Double.displayText, Double.isFinite_of_isNaN isNaN, Double.isFinite_of_isNaN isNaN', isNaN,
      isNaN']

private theorem displayText_of_wholeAlike {whole : Int64} {number : Double}
    (same : compareLongDouble whole number = .eq) (agree : wholeAlike whole number = true) :
    number.displayText = display (.long whole) := by
  rw [compareLongDouble_eq, Double.comparePositions_eq_iff] at same
  obtain ⟨finite, units⟩ := Double.isFinite_of_position same.symm
  simp only [wholeAlike, Bool.and_eq_true, Bool.or_eq_true, decide_eq_true_eq, Bool.not_eq_true',
    Bool.and_eq_false_iff] at agree
  obtain ⟨written, unsigned⟩ := agree
  have written (positive : 0 < whole.toInt.natAbs) :
      (Decimal.shortest .away number).writes whole.toInt.natAbs = true :=
    written.elim (Decimal.shortest_of_whole .away (Double.magnitude_of_units units) positive) id
  refine Double.displayText_of_whole finite units written fun none => unsigned.resolve_left ?_
  rw [(Double.isZero_iff finite).mpr (by rw [units, none, Int.zero_mul])]
  exact Bool.noConfusion

theorem display_eq_of_shownAlike {left right : Value} (same : left.compare right = .eq)
    (agree : left.shownAlike right = true) : left.display = right.display := by
  cases left <;> cases right <;> try (simp [compare, rank] at same; done)
  case null.null => rfl
  case bool.bool | text.text =>
    rw [compare, Std.LawfulEqOrd.compare_eq_iff_eq] at same
    rw [same]
  case long.long =>
    rw [compare, Int.compare_eq_eq] at same
    rw [display, display, same]
  case long.double =>
    rw [compare] at same
    exact (displayText_of_wholeAlike same agree).symm
  case double.long =>
    rw [compare, Ordering.swap_eq_eq] at same
    exact displayText_of_wholeAlike same agree
  case double.double => exact displayText_eq_of_alike same agree
  case array.array | object.object =>
    exact congrArg Json.text ((toJson_eq_iff same).mpr agree)

end Value

end RowPipeline
