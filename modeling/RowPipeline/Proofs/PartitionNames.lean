import RowPipeline.Index.Partition
import RowPipeline.Proofs.Base64Digits
import RowPipeline.Proofs.CellTexts

/-!
The name of a partition's index holds its table and its values. The values are read back from the name
as the cells that they were, so that partitions of one table that differ have different names, and so
do partitions of different tables, whatever points a table's name has.
-/

namespace RowPipeline

theorem ShardId.splitLast?_append (separator : Char) (left : List Char) {right : List Char}
    (absent : separator ∉ right) :
    splitLast? separator (left ++ separator :: right) = some (left, right) := by
  have others : ∀ character ∈ right.reverse, (character != separator) = true := by
    intro character member
    rw [bne_iff_ne]
    rintro rfl
    exact absent (List.mem_reverse.mp member)
  have reversed : (left ++ separator :: right).reverse =
      right.reverse ++ separator :: left.reverse := by simp
  have stop : (separator != separator) = false := bne_self_eq_false separator
  simp only [splitLast?, reversed, List.dropWhile_append_of_pos others,
    List.takeWhile_append_of_pos others, List.dropWhile_cons, List.takeWhile_cons, stop,
    Bool.false_eq_true, if_false, List.append_nil, List.reverse_reverse]

namespace Partition

/-- The digits that stand for the values in a name. -/
def identifier (values : List Value) : String := Base64.encodeText (Value.listText values)

private theorem point_not_mem_identifier (values : List Value) : '.' ∉ (identifier values).toList := by
  rw [identifier, Base64.encodeText, String.toList_ofList]
  exact Base64.point_not_mem_encode _

private theorem toList_indexName (table : String) (values : List Value) :
    (indexName table values).toList =
      namePrefix.toList ++ (table.toList ++ '.' :: (identifier values).toList) := by
  simp [indexName, identifier, String.toList_append]

/-- A name is split where its table ends, since no digit is a point. -/
theorem splitLast?_indexName (table : String) (values : List Value) :
    ShardId.splitLast? '.' ((indexName table values).toList.drop namePrefix.length) =
      some (table.toList, (identifier values).toList) := by
  rw [toList_indexName, ← String.length_toList, List.drop_left]
  exact ShardId.splitLast?_append '.' _ (point_not_mem_identifier values)

/-- Values that can be read from a name: neither NaN nor an infinity is among them, and as a document
they nest no deeper than a reader goes. -/
structure Legible (values : List Value) : Prop where
  plain : Value.ItemsEverywhere Value.IsPlain values
  shallow : (Json.array (Value.itemsToJson values)).height ≤ Json.depthLimit

theorem values?_indexName (table : String) {values : List Value} (legible : Legible values) :
    values? (indexName table values) = some values := by
  have isPrefix : namePrefix.toList.isPrefixOf (indexName table values).toList = true := by
    rw [toList_indexName, List.isPrefixOf_iff_prefix]
    exact List.prefix_append _ _
  have digits : Base64.decodeText? (String.ofList (identifier values).toList) =
      some (Value.listText values) := by
    rw [String.ofList_toList]
    exact Base64.decodeText?_encodeText _
  simp only [values?, isPrefix, splitLast?_indexName, digits, Value.parse?_listText legible.shallow,
    Value.itemsOfJson_itemsToJson legible.plain, Option.bind_eq_bind, Option.bind_some, Bool.not_true,
    Bool.false_eq_true, if_false]

/-- Values are read back from the name of their partition, each with the type that it had; lists of
values that differ give one table different names, and different tables have no name in common. That
doubles are read back from their texts is due to `Double.ofDecimal?`, which reads the nearest one. -/
theorem index_names_decode :
    (∀ (table : String) (values : List Value), Legible values →
      values? (indexName table values) = some values) ∧
    (∀ (table : String) (left right : List Value), Legible left → Legible right → left ≠ right →
      indexName table left ≠ indexName table right) ∧
    (∀ (table other : String) (left right : List Value), table ≠ other →
      indexName table left ≠ indexName other right) := by
  refine ⟨fun table values => values?_indexName table, ?_, ?_⟩
  · intro table left right legible legible' different same
    have read := values?_indexName table legible
    rw [same, values?_indexName table legible'] at read
    exact different (Option.some.inj read).symm
  · intro table other left right different same
    have split := splitLast?_indexName table left
    rw [same, splitLast?_indexName] at split
    exact different (String.toList_inj.mp (congrArg Prod.fst (Option.some.inj split)).symm)

/-- A negative zero and the least positive double inside of a list and an object, texts with quotes
and control characters, a table with points, and numbers that are equal but of two types. -/
theorem index_names_decode_nested :
    let values : List Value := [.double ⟨0x3fb999999999999a⟩, .long (-5), .text "a\"\u0001.é",
      .array [.null, .double ⟨0x8000000000000000⟩],
      .object [("a", .bool true), ("b", .double ⟨1⟩)]]
    Legible values ∧ values? (indexName "a.b." values) = some values ∧
      indexName "a" [.long 1] ≠ indexName "a" [.double ⟨0x3ff0000000000000⟩] ∧
      indexName "a" values ≠ indexName "a.b" values := by
  intro values
  have plain : Value.ItemsEverywhere Value.IsPlain values := by
    simp only [values, Value.ItemsEverywhere, Value.Everywhere, Value.FieldsEverywhere,
      Value.FieldEverywhere, Value.IsPlain, Value.HasOrder, Value.IsFinite, Dictionary.Ascending]
    decide +kernel
  have legible : Legible values := ⟨plain, by decide +kernel⟩
  have long : Legible [.long 1] := ⟨⟨⟨trivial, trivial⟩, trivial⟩, by decide +kernel⟩
  have double : Legible [.double ⟨0x3ff0000000000000⟩] :=
    ⟨⟨⟨trivial, rfl⟩, trivial⟩, by decide +kernel⟩
  exact ⟨legible, index_names_decode.1 _ _ legible,
    index_names_decode.2.1 "a" _ _ long double (by simp),
    index_names_decode.2.2 "a" "a.b" _ _ (by decide)⟩

end Partition

end RowPipeline
