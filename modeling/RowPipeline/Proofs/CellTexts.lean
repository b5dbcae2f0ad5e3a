import RowPipeline.Proofs.AscendingKeys
import RowPipeline.Proofs.Fingerprints
import RowPipeline.Proofs.JsonTexts
import RowPipeline.Value.Text

/-!
Cells as documents and back. A cell without NaN and infinities is made again from its document, each
number with the type that it had, and lists of such cells are read from their text.
-/

namespace RowPipeline

namespace Value

mutual

/-- A cell and all cells inside of it have a property. -/
def Everywhere (holds : Value → Prop) : Value → Prop
  | .array items => holds (.array items) ∧ ItemsEverywhere holds items
  | .object fields => holds (.object fields) ∧ FieldsEverywhere holds fields
  | scalar => holds scalar

def ItemsEverywhere (holds : Value → Prop) : List Value → Prop
  | [] => True
  | item :: rest => Everywhere holds item ∧ ItemsEverywhere holds rest

def FieldEverywhere (holds : Value → Prop) : String × Value → Prop
  | (_, value) => Everywhere holds value

def FieldsEverywhere (holds : Value → Prop) : List (String × Value) → Prop
  | [] => True
  | field :: rest => FieldEverywhere holds field ∧ FieldsEverywhere holds rest

end

/-- The fields of an object ascend, as the fields of every cell do. -/
def HasOrder : Value → Prop
  | .object fields => Dictionary.Ascending fields
  | _ => True

/-- A double is neither NaN nor infinite. -/
def IsFinite : Value → Prop
  | .double value => value.isFinite = true
  | _ => True

/-- A cell that a document can hold as it is. -/
abbrev IsPlain (value : Value) : Prop := value.HasOrder ∧ value.IsFinite

theorem fitsInteger_toInt (value : Int64) : Json.fitsInteger value.toInt = true := by
  have least := value.le_toInt
  have greatest := value.toInt_lt
  simp only [Json.fitsInteger, Bool.and_eq_true, decide_eq_true_eq]
  omega

mutual

/-- A reader keeps all numbers that cells are written as. -/
theorem isReadable_toJson (value : Value) : value.toJson.IsReadable := by
  match value with
  | .null => trivial
  | .bool _ => trivial
  | .long value => exact fitsInteger_toInt value
  | .double value =>
    rw [toJson]
    split
    next finite => exact finite
    next => trivial
  | .text _ => trivial
  | .array items => exact itemsReadable_itemsToJson items
  | .object fields => exact membersReadable_fieldsToJson fields

theorem itemsReadable_itemsToJson (items : List Value) : Json.ItemsReadable (itemsToJson items) := by
  match items with
  | [] => trivial
  | item :: rest => exact ⟨isReadable_toJson item, itemsReadable_itemsToJson rest⟩

private theorem membersReadable_fieldsToJson (fields : List (String × Value)) :
    Json.MembersReadable (fieldsToJson fields) := by
  match fields with
  | [] => trivial
  | (_, value) :: rest => exact ⟨isReadable_toJson value, membersReadable_fieldsToJson rest⟩

end

mutual

/-- A plain cell is made again from its document. -/
theorem ofJson_toJson {value : Value} (plain : value.Everywhere IsPlain) :
    ofJson value.toJson = value := by
  match value with
  | .null => rfl
  | .bool _ => rfl
  | .long value => rw [toJson, Json.integer, ofJson, ofNumber, Long.ofInt?_toInt]
  | .double value =>
    have finite : value.isFinite = true := plain.2
    rw [toJson, if_pos finite, ofJson, ofNumber]
  | .text _ => rfl
  | .array items => rw [toJson, ofJson, itemsOfJson_itemsToJson plain.2]
  | .object fields =>
    have ascending : Dictionary.Ascending fields := plain.1.1
    rw [toJson, ofJson, fieldsOfJson_fieldsToJson plain.2, Dictionary.ofList_of_ascending ascending]

theorem itemsOfJson_itemsToJson {items : List Value} (plain : ItemsEverywhere IsPlain items) :
    itemsOfJson (itemsToJson items) = items := by
  match items with
  | [] => rfl
  | item :: rest =>
    rw [itemsToJson, itemsOfJson, ofJson_toJson plain.1, itemsOfJson_itemsToJson plain.2]

private theorem fieldsOfJson_fieldsToJson {fields : List (String × Value)}
    (plain : FieldsEverywhere IsPlain fields) : fieldsOfJson (fieldsToJson fields) = fields := by
  match fields with
  | [] => rfl
  | (name, value) :: rest =>
    have first : ofJson value.toJson = value := ofJson_toJson plain.1
    rw [fieldsToJson, fieldsOfJson, fieldToJson, fieldOfJson, first, fieldsOfJson_fieldsToJson plain.2]

end

/-- A list of cells is read from its text. -/
theorem parse?_listText {values : List Value}
    (shallow : (Json.array (itemsToJson values)).height ≤ Json.depthLimit) :
    Json.parse? (listText values) = some (.array (itemsToJson values)) :=
  Json.parse?_text (itemsReadable_itemsToJson values) shallow

end Value

end RowPipeline
