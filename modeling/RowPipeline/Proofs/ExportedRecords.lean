import RowPipeline.Export.Shape
import RowPipeline.Proofs.CellTexts
import RowPipeline.Proofs.ForeseenFaults
import RowPipeline.Proofs.JsonGrammar
import RowPipeline.Proofs.Success

/-!
What an export writes of a row: one line, from which the document of the row is read again. Members that
are overwritten have the values they are overwritten with, and numbers that JSON cannot write are null.
-/

namespace RowPipeline

namespace Value

/-! ### Cells as documents hold them -/

mutual

/-- A cell as it is read from its document: null where it has NaN or an infinity. -/
def asRead : Value → Value
  | .double value => if value.isFinite then .double value else .null
  | .array items => .array (itemsAsRead items)
  | .object fields => .object (fieldsAsRead fields)
  | scalar => scalar

def itemsAsRead : List Value → List Value
  | [] => []
  | item :: rest => asRead item :: itemsAsRead rest

def fieldAsRead : String × Value → String × Value
  | (name, value) => (name, asRead value)

def fieldsAsRead : List (String × Value) → List (String × Value)
  | [] => []
  | field :: rest => fieldAsRead field :: fieldsAsRead rest

end

mutual

theorem toJson_asRead (value : Value) : value.asRead.toJson = value.toJson := by
  match value with
  | .null | .bool _ | .long _ | .text _ => rfl
  | .double value =>
    rw [asRead, toJson]
    split
    next finite => rw [toJson, if_pos finite]
    next => rfl
  | .array items => rw [asRead, toJson, toJson, itemsToJson_itemsAsRead items]
  | .object fields => rw [asRead, toJson, toJson, fieldsToJson_fieldsAsRead fields]

private theorem itemsToJson_itemsAsRead (items : List Value) :
    itemsToJson (itemsAsRead items) = itemsToJson items := by
  match items with
  | [] => rfl
  | item :: rest =>
    rw [itemsAsRead, itemsToJson, itemsToJson, toJson_asRead item, itemsToJson_itemsAsRead rest]

private theorem fieldsToJson_fieldsAsRead (fields : List (String × Value)) :
    fieldsToJson (fieldsAsRead fields) = fieldsToJson fields := by
  match fields with
  | [] => rfl
  | (name, value) :: rest =>
    rw [fieldsAsRead, fieldsToJson, fieldsToJson, fieldAsRead, fieldToJson, fieldToJson,
      toJson_asRead value, fieldsToJson_fieldsAsRead rest]

end

private theorem keys_fieldsAsRead (fields : List (String × Value)) :
    (fieldsAsRead fields).map (·.1) = fields.map (·.1) := by
  induction fields with
  | nil => rfl
  | cons field rest ih =>
    obtain ⟨name, value⟩ := field
    rw [fieldsAsRead, fieldAsRead, List.map_cons, List.map_cons, ih]

private theorem ascending_fieldsAsRead {fields : List (String × Value)}
    (ascending : Dictionary.Ascending fields) : Dictionary.Ascending (fieldsAsRead fields) := by
  have keys : (fields.map (·.1)).Pairwise fun left right => Ord.compare left right = .lt :=
    List.pairwise_map.mpr ascending
  rw [← keys_fieldsAsRead] at keys
  exact List.pairwise_map.mp keys

mutual

theorem isPlain_asRead {value : Value} (ordered : value.Everywhere HasOrder) :
    value.asRead.Everywhere IsPlain := by
  match value with
  | .null | .bool _ | .long _ | .text _ => exact ⟨trivial, trivial⟩
  | .double value =>
    rw [asRead]
    split
    next finite => exact ⟨trivial, finite⟩
    next => exact ⟨trivial, trivial⟩
  | .array items => exact ⟨⟨trivial, trivial⟩, itemsPlain_itemsAsRead ordered.2⟩
  | .object fields =>
    exact ⟨⟨ascending_fieldsAsRead ordered.1, trivial⟩, fieldsPlain_fieldsAsRead ordered.2⟩

private theorem itemsPlain_itemsAsRead {items : List Value} (ordered : ItemsEverywhere HasOrder items) :
    ItemsEverywhere IsPlain (itemsAsRead items) := by
  match items with
  | [] => trivial
  | item :: rest => exact ⟨isPlain_asRead ordered.1, itemsPlain_itemsAsRead ordered.2⟩

private theorem fieldsPlain_fieldsAsRead {fields : List (String × Value)}
    (ordered : FieldsEverywhere HasOrder fields) :
    FieldsEverywhere IsPlain (fieldsAsRead fields) := by
  match fields with
  | [] => trivial
  | (_, value) :: rest => exact ⟨isPlain_asRead ordered.1, fieldsPlain_fieldsAsRead ordered.2⟩

end

/-- A cell is read from its document, but for numbers that the document cannot hold. -/
theorem ofJson_toJson_asRead {value : Value} (ordered : value.Everywhere HasOrder) :
    ofJson value.toJson = value.asRead := by
  rw [← toJson_asRead value]
  exact ofJson_toJson (isPlain_asRead ordered)

/-- The fields of all objects in a cell ascend. -/
abbrev IsOrdered (value : Value) : Prop := value.Everywhere HasOrder

private theorem itemsEverywhere_iff {holds : Value → Prop} {items : List Value} :
    ItemsEverywhere holds items ↔ ∀ item ∈ items, item.Everywhere holds := by
  induction items with
  | nil => simp [ItemsEverywhere]
  | cons item rest ih => simp [ItemsEverywhere, ih]

theorem fieldsEverywhere_iff {holds : Value → Prop} {fields : List (String × Value)} :
    FieldsEverywhere holds fields ↔ ∀ field ∈ fields, field.2.Everywhere holds := by
  induction fields with
  | nil => simp [FieldsEverywhere]
  | cons field rest ih =>
    obtain ⟨name, value⟩ := field
    rw [FieldsEverywhere, FieldEverywhere, List.forall_mem_cons, ih]

end Value

/-! ### What functions and expressions give -/

namespace ScalarFunction

variable {function : ScalarFunction} {value : Value}

private theorem ordered_of_logical {decisive sawNull : Bool} {values : List Value}
    (done : logical function decisive sawNull values = .ok value) : value.IsOrdered := by
  induction values generalizing sawNull with
  | nil =>
    cases done
    cases sawNull <;> trivial
  | cons first rest ih =>
    cases first with
    | null => exact ih done
    | bool truth =>
      rw [logical] at done
      split at done
      · cases done
        trivial
      · exact ih done
    | _ => cases done

theorem ordered_of_arithmetic {operation : Int → Int → Int} {onDoubles : Double → Double → Double}
    {left right : Value} (done : arithmetic function operation onDoubles left right = .ok value) :
    value.IsOrdered := by
  unfold arithmetic at done
  split at done
  · cases done
    trivial
  · cases done
    trivial
  · split at done <;> cases done
    trivial
  · split at done <;> cases done
    trivial

/-- A function gives a cell without objects. -/
theorem ordered_of_apply {values : List Value} (done : function.apply values = .ok value) :
    value.IsOrdered := by
  unfold apply at done
  split at done
  · cases done
    unfold concatenate
    split <;> trivial
  · exact ordered_of_logical done
  · exact ordered_of_logical done
  · cases done
    trivial
  · cases done
    trivial
  · cases done
    trivial
  · cases done
  · exact ordered_of_arithmetic done
  · exact ordered_of_arithmetic done
  · exact ordered_of_arithmetic done
  · split at done
    · split at done <;> cases done <;> trivial
    · cases done
  · cases done

end ScalarFunction

/-- The objects that a symbol is written with have ascending fields, as all objects do. -/
def Symbol.IsOrdered (symbol : Symbol) : Prop :=
  ∀ value, Symbol.IsPart (.literal value) symbol → value.IsOrdered

private theorem Symbol.ordered_of_evaluate {symbol : Symbol} {row : Row} {value : Value}
    (literals : symbol.IsOrdered) (cells : ∀ cell ∈ row, cell.IsOrdered)
    (found : symbol.evaluate row = .ok value) : value.IsOrdered := by
  cases symbol with
  | input index =>
    rw [evaluate] at found
    split at found
    next present =>
      cases found
      exact cells _ (List.mem_of_getElem? present)
    · cases found
  | literal constant =>
    cases found
    exact literals _ .self
  | call function arguments =>
    rw [evaluate] at found
    split at found
    · exact ScalarFunction.ordered_of_apply found
    · cases found

/-! ### Records -/

namespace ExportShape

/-- The expressions that a shape evaluates. -/
def expressions : ExportShape → List Expression
  | .document => []
  | .object columns _ => columns
  | .array columns => columns

/-- The document of a row before overwriting: its first cell, an object with the last value that is
given for each name, or an array of values. -/
inductive Describes (row : Row) : ExportShape → Value → Prop where
  | document : row.head? = some cell → Describes row .document cell
  | object : columns.map (·.evaluate row) = cells.map .ok → Dictionary.Ascending fields →
      (∀ name, Dictionary.get? name fields = (names.zip cells).reverse.lookup name) →
      Describes row (.object columns names) (.object fields)
  | array : columns.map (·.evaluate row) = cells.map .ok → Describes row (.array columns) (.array cells)

/-- The members of an object have the values they are overwritten with and else their own, and nothing
but objects is overwritten. -/
inductive Overwritten (overwrites : Fields) : Value → Value → Prop where
  | object : Dictionary.Ascending members →
      (∀ name, Dictionary.get? name members =
        (Dictionary.get? name overwrites).or (Dictionary.get? name fields)) →
      Overwritten overwrites (.object fields) (.object members)
  | other : (∀ fields, whole ≠ .object fields) → Overwritten overwrites whole whole

variable {shape : ExportShape} {overwrites : Fields} {row : Row}

private theorem describes_of_value {value : Value} (found : shape.value row = .ok value) :
    shape.Describes row value := by
  have cells {columns : List Expression} {values : List Value}
      (done : Expression.evaluateAll columns row = .ok values) :
      columns.map (·.evaluate row) = values.map .ok := by
    obtain ⟨lengths, each⟩ := mapM_eq_ok_iff.mp done
    refine List.ext_getElem (by simp [lengths]) fun position bound bound' => ?_
    simp only [List.getElem_map]
    exact each position _ _
  cases shape with
  | document =>
    cases row with
    | nil => cases found
    | cons first rest =>
      cases found
      exact .document rfl
  | object columns names =>
    obtain ⟨values, done, rfl⟩ := ok_of_map found
    exact .object (cells done) (Dictionary.ascending_ofList _) fun name => Dictionary.get?_ofList name _
  | array columns =>
    obtain ⟨values, done, rfl⟩ := ok_of_map found
    exact .array (cells done)

private theorem overwritten_overwrite {value : Value} (added : Dictionary.Ascending overwrites)
    (ordered : value.IsOrdered) : Overwritten overwrites value (overwrite overwrites value) := by
  cases value with
  | object fields =>
    have ascending : Dictionary.Ascending fields := ordered.1
    exact .object (ascending.extend overwrites)
      fun name => Dictionary.get?_extend_of_ascending added name fields
  | _ => exact .other nofun

private theorem ordered_overwrite {value : Value} (ordered : value.IsOrdered)
    (overwriting : (Value.object overwrites).IsOrdered) :
    (overwrite overwrites value).IsOrdered := by
  cases value with
  | object fields =>
    have ascending : Dictionary.Ascending fields := ordered.1
    have added : Dictionary.Ascending overwrites := overwriting.1
    have own := Value.fieldsEverywhere_iff.mp ordered.2
    have given := Value.fieldsEverywhere_iff.mp overwriting.2
    refine ⟨ascending.extend overwrites, Value.fieldsEverywhere_iff.mpr fun field member => ?_⟩
    obtain ⟨name, cell⟩ := field
    have found := (ascending.extend overwrites).mem_iff_get?.mp member
    rw [Dictionary.get?_extend_of_ascending added, Option.or_eq_some_iff] at found
    rcases found with there | ⟨-, here⟩
    · exact given _ (added.mem_iff_get?.mpr there)
    · exact own _ (ascending.mem_iff_get?.mpr here)
  | _ => exact ordered

/-- A line without a newline, from which the document of a row is read with its members overwritten:
all of it but numbers that JSON cannot write, which are null. -/
def Holds (shape : ExportShape) (overwrites : Fields) (row : Row) (line : String) : Prop :=
  ∃ value record, shape.Describes row value ∧ Overwritten overwrites value record ∧
    '\n' ∉ line.toList ∧
    (∀ depth, record.toJson.height ≤ depth → Json.parseNested? depth line = some record.toJson) ∧
    Value.ofJson record.toJson = record.asRead

variable (literals : ∀ expression ∈ shape.expressions, expression.symbol.IsOrdered)
variable (cells : ∀ cell ∈ row, cell.IsOrdered)

include literals cells

theorem ordered_of_value {value : Value} (found : shape.value row = .ok value) : value.IsOrdered := by
  have evaluated {columns : List Expression} (same : columns = shape.expressions)
      {values : List Value} (done : Expression.evaluateAll columns row = .ok values) :
      ∀ value ∈ values, value.IsOrdered := by
    intro value member
    obtain ⟨lengths, each⟩ := mapM_eq_ok_iff.mp done
    obtain ⟨position, bound, rfl⟩ := List.getElem_of_mem member
    have inner : columns[position] ∈ shape.expressions := same ▸ List.getElem_mem _
    exact Symbol.ordered_of_evaluate (literals _ inner) cells (each position (lengths ▸ bound) bound)
  cases shape with
  | document =>
    cases row with
    | nil => cases found
    | cons first rest =>
      cases found
      exact cells _ (.head _)
  | object columns names =>
    obtain ⟨values, done, rfl⟩ := ok_of_map found
    refine ⟨Dictionary.ascending_ofList _, Value.fieldsEverywhere_iff.mpr fun field member => ?_⟩
    obtain ⟨name, cell⟩ := field
    have last := (Dictionary.ascending_ofList _).mem_iff_get?.mp member
    rw [Dictionary.get?_ofList] at last
    obtain ⟨before, behind, split, -⟩ := List.lookup_eq_some_iff.mp last
    have given : (name, cell) ∈ names.zip values := by
      rw [← List.mem_reverse, split]
      simp
    exact evaluated rfl done cell (List.of_mem_zip given).2
  | array columns =>
    obtain ⟨values, done, rfl⟩ := ok_of_map found
    exact ⟨trivial, Value.itemsEverywhere_iff.mpr (evaluated rfl done)⟩

private theorem holds_of_line {line : String} (overwriting : (Value.object overwrites).IsOrdered)
    (written : shape.line overwrites row = .ok line) : shape.Holds overwrites row line := by
  obtain ⟨value, found, rfl⟩ := ok_of_map written
  have ordered := ordered_of_value literals cells found
  have readable := Value.isReadable_toJson (overwrite overwrites value)
  refine ⟨value, overwrite overwrites value, describes_of_value found,
    overwritten_overwrite overwriting.1 ordered, ?_,
    fun depth shallow => Json.parseNested?_text readable shallow,
    Value.ofJson_toJson_asRead (ordered_overwrite ordered overwriting)⟩
  rw [Json.text, String.toList_ofList]
  exact (Json.printable_render _).newline_not_mem

omit cells in
theorem holds_of_lines {rows : List Row} {lines : List String}
    (overwriting : (Value.object overwrites).IsOrdered)
    (cells : ∀ row ∈ rows, ∀ cell ∈ row, cell.IsOrdered)
    (written : rows.map (shape.line overwrites) = lines.map .ok) :
    List.Forall₂ (shape.Holds overwrites) rows lines := by
  induction rows generalizing lines with
  | nil =>
    obtain rfl := List.map_eq_nil_iff.mp written.symm
    exact .nil
  | cons row rest ih =>
    obtain ⟨line, others, rfl, first, later⟩ := List.map_eq_cons_iff.mp written.symm
    have here := holds_of_line literals (cells row (.head _)) overwriting first.symm
    exact .cons here (ih (fun other member => cells other (.tail _ member)) later.symm)

end ExportShape

end RowPipeline
