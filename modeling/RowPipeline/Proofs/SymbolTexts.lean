import RowPipeline.Proofs.KeptDocuments

/-!
Expressions as documents and back. A tree of symbols is read back from its document, each literal with
the type that it had.
-/

namespace RowPipeline

namespace Value

private theorem fieldsToJson_eq_map (fields : List (String × Value)) :
    fieldsToJson fields = fields.map fieldToJson := by
  induction fields with
  | nil => rfl
  | cons field rest ih => rw [fieldsToJson, ih, List.map_cons]

mutual

theorem isKept_toJson {value : Value} (plain : value.Everywhere IsPlain) : value.toJson.IsKept := by
  match value with
  | .null => trivial
  | .bool _ => trivial
  | .long value => exact fitsInteger_toInt value
  | .double value =>
    have finite : value.isFinite = true := plain.2
    rw [toJson, if_pos finite]
    exact finite
  | .text _ => trivial
  | .array _ => exact itemsKept_itemsToJson plain.2
  | .object fields =>
    have ascending : Dictionary.Ascending fields := plain.1.1
    refine ⟨?_, membersKept_fieldsToJson plain.2⟩
    rw [fieldsToJson_eq_map]
    exact ascending.map _ fun (_, _) (_, _) below => below

private theorem itemsKept_itemsToJson {items : List Value} (plain : ItemsEverywhere IsPlain items) :
    Json.ItemsKept (itemsToJson items) := by
  match items with
  | [] => trivial
  | _ :: _ => exact ⟨isKept_toJson plain.1, itemsKept_itemsToJson plain.2⟩

private theorem membersKept_fieldsToJson {fields : List (String × Value)}
    (plain : FieldsEverywhere IsPlain fields) : Json.MembersKept (fieldsToJson fields) := by
  match fields with
  | [] => trivial
  | (_, value) :: _ =>
    have first : value.Everywhere IsPlain := plain.1
    exact ⟨isKept_toJson first, membersKept_fieldsToJson plain.2⟩

end

theorem restores {value : Value} (plain : value.Everywhere IsPlain) :
    Json.Restores toJson (some ∘ ofJson) value :=
  ⟨isKept_toJson plain, congrArg some (ofJson_toJson plain)⟩

end Value

/-! ### Symbols -/

theorem ScalarFunction.restores_name (function : ScalarFunction) :
    Json.Restores (fun function => .string (name function)) (Json.named? true all name) function :=
  Json.restores_name (by cases function <;> decide)

namespace Symbol

mutual

/-- What a symbol can hold: positions fit a word, and literals are plain. -/
def IsProper : Symbol → Prop
  | .input index => Json.FitsWord index
  | .literal value => value.Everywhere Value.IsPlain
  | .call _ arguments => AllProper arguments

def AllProper : List Symbol → Prop
  | [] => True
  | symbol :: rest => IsProper symbol ∧ AllProper rest

end

private theorem allProper_iff {symbols : List Symbol} :
    AllProper symbols ↔ ∀ symbol ∈ symbols, symbol.IsProper := by
  induction symbols with
  | nil => simp [AllProper]
  | cons symbol rest ih => rw [AllProper, ih, List.forall_mem_cons]

theorem toJson_ne_null (symbol : Symbol) : symbol.toJson ≠ .null := by
  cases symbol <;> exact nofun

mutual

theorem isKept_toJson {symbol : Symbol} (proper : symbol.IsProper) : symbol.toJson.IsKept := by
  match symbol with
  | .input index =>
    exact ⟨by simp +decide [Dictionary.Ascending], Json.isKept_nat proper, trivial, trivial⟩
  | .literal value =>
    exact ⟨by simp +decide [Dictionary.Ascending], trivial, Value.isKept_toJson proper, trivial⟩
  | .call _ arguments =>
    exact ⟨by simp +decide [Dictionary.Ascending], itemsKept_allToJson proper, trivial, trivial, trivial⟩

private theorem itemsKept_allToJson {symbols : List Symbol} (proper : AllProper symbols) :
    Json.ItemsKept (allToJson symbols) := by
  match symbols with
  | [] => trivial
  | _ :: _ => exact ⟨isKept_toJson proper.1, itemsKept_allToJson proper.2⟩

end

private theorem height_pos (symbol : Symbol) : 0 < symbol.toJson.height := by
  cases symbol <;> exact Nat.succ_pos _

mutual

/-- A symbol is read back from its document, whose height bounds how deep calls nest. -/
theorem readWithin_toJson {symbol : Symbol} (proper : symbol.IsProper) (nested : Bool) {depth : Nat}
    (enough : symbol.toJson.height ≤ depth) :
    readWithin nested depth symbol.toJson = some symbol := by
  obtain ⟨less, rfl⟩ := Nat.exists_eq_succ_of_ne_zero
    (Nat.ne_of_gt (Nat.lt_of_lt_of_le symbol.height_pos enough))
  match symbol with
  | .input index =>
    have tagged : Record.tagged? "kind" (toJson (.input index)) =
        some (.string "input", .object [("index", .nat index)]) := rfl
    have kind : Kind.ofJson? nested (.string "input") = some .input := rfl
    refine Record.bind_of_eq tagged (Record.bind_of_eq kind ?_)
    refine Record.bind_object (by simp [Dictionary.Ascending]) ?_
    exact Record.bind_required rfl rfl (Json.restores_count proper).read rfl
  | .literal value =>
    have tagged : Record.tagged? "kind" (toJson (.literal value)) =
        some (.string "literal", .object [("value", value.toJson)]) := rfl
    have kind : Kind.ofJson? nested (.string "literal") = some .literal := rfl
    refine Record.bind_of_eq tagged (Record.bind_of_eq kind ?_)
    refine Record.bind_object (by simp [Dictionary.Ascending]) ?_
    exact Record.bind_required rfl rfl (Value.restores proper).read rfl
  | .call function arguments =>
    have shallow : Json.itemsHeight (allToJson arguments) ≤ less := by
      simp only [toJson, Json.height, Json.membersHeight, Json.memberHeight] at enough
      omega
    have inner : Json.arrayOf? (readWithin true less) (.array (allToJson arguments)) =
      some arguments := readAll_toJson proper shallow
    have tagged : Record.tagged? "kind" (toJson (.call function arguments)) =
      some (.string "function",
        .object [("args", .array (allToJson arguments)), ("name", .string function.name)]) := rfl
    have kind : Kind.ofJson? nested (.string "function") = some .function := rfl
    refine Record.bind_of_eq tagged (Record.bind_of_eq kind ?_)
    refine Record.bind_object (by simp +decide [Dictionary.Ascending]) ?_
    refine Record.bind_required rfl rfl function.restores_name.read ?_
    exact Record.bind_required rfl rfl inner rfl

private theorem readAll_toJson {symbols : List Symbol} (proper : AllProper symbols) {depth : Nat}
    (shallow : Json.itemsHeight (allToJson symbols) ≤ depth) :
    (allToJson symbols).mapM (readWithin true depth) = some symbols := by
  match symbols with
  | [] => rfl
  | symbol :: rest =>
    obtain ⟨first, others⟩ := Nat.max_le.mp shallow
    rw [allToJson, List.mapM_cons, readWithin_toJson proper.1 true first, readAll_toJson proper.2 others]
    rfl

end

theorem restores {symbol : Symbol} (proper : symbol.IsProper) :
    Json.Restores toJson ofPart? symbol :=
  ⟨isKept_toJson proper, readWithin_toJson proper true (Nat.le_refl _)⟩

theorem restores_list {symbols : List Symbol} (proper : AllProper symbols) :
    Json.Restores (Json.ofList toJson) Projection.symbols? symbols :=
  Json.restores_list fun symbol member => restores (allProper_iff.mp proper symbol member)

end Symbol

/-! ### Parts of plans -/

theorem AggregateFunction.restores_name (function : AggregateFunction) :
    Json.Restores (fun function => .string (tag function)) (Json.named? true all tag) function :=
  Json.restores_name (by cases function <;> decide)

def AggregateCall.IsProper (call : AggregateCall) : Prop := Symbol.AllProper call.inputs

theorem AggregateCall.restores {call : AggregateCall} (proper : call.IsProper) :
    Json.Restores toJson ofPart? call where
  kept := ⟨by simp +decide [Dictionary.Ascending], trivial, (Symbol.restores_list proper).kept, trivial⟩
  read := by
    refine Record.bind_object (by simp +decide [Dictionary.Ascending]) ?_
    refine Record.bind_required rfl rfl call.function.restores_name.read ?_
    exact Record.bind_defaulted rfl rfl (Symbol.restores_list proper).read rfl

/-- The symbols of a target are proper. -/
structure IndexTarget.IsProper (target : IndexTarget) : Prop where
  primaryKeys : Symbol.AllProper target.primaryKeys
  clusteredBy : ∀ symbol ∈ target.clusteredBy, symbol.IsProper
  partitionedBy : Symbol.AllProper target.partitionedBy

theorem IndexTarget.restores {target : IndexTarget} (proper : target.IsProper) :
    Json.Restores toJson ofJson? target where
  kept := ⟨by simp +decide [Dictionary.Ascending], trivial,
    Json.isKept_ofOption fun symbol member => Symbol.restores (proper.clusteredBy symbol member),
    (Symbol.restores_list proper.partitionedBy).kept, (Symbol.restores_list proper.primaryKeys).kept,
    trivial, trivial⟩
  read := by
    refine Record.bind_object (by simp +decide [Dictionary.Ascending]) ?_
    refine Record.bind_required rfl rfl rfl ?_
    refine Record.bind_defaulted rfl rfl (Symbol.restores_list proper.primaryKeys).read ?_
    refine Record.bind_optional rfl rfl Symbol.toJson_ne_null
      (fun symbol member => Symbol.restores (proper.clusteredBy symbol member)) ?_
    refine Record.bind_defaulted rfl rfl (Symbol.restores_list proper.partitionedBy).read ?_
    exact Record.bind_defaulted rfl rfl rfl rfl

theorem ReaderLocation.restores {location : ReaderLocation} (bound : location.reader < 0x100000000) :
    Json.Restores toJson ofJson? location where
  kept := ⟨by simp +decide [Dictionary.Ascending], trivial, Json.isKept_nat (by omega), trivial⟩
  read := by
    refine Record.bind_object (by simp +decide [Dictionary.Ascending]) ?_
    refine Record.bind_required rfl rfl (Json.restores_natBelow bound (by decide)).read ?_
    exact Record.bind_required rfl rfl rfl rfl

theorem SystemAssignment.restores {assignment : SystemAssignment}
    (proper : assignment.value.IsProper) : Json.Restores toJson ofJson? assignment where
  kept := ⟨by simp +decide [Dictionary.Ascending], trivial, trivial, (Symbol.restores proper).kept,
    trivial⟩
  read := by
    refine Record.bind_object (by simp +decide [Dictionary.Ascending]) ?_
    refine Record.bind_required rfl rfl rfl ?_
    refine Record.bind_required rfl rfl rfl ?_
    exact Record.bind_required rfl rfl (Symbol.restores proper).read rfl

end RowPipeline
