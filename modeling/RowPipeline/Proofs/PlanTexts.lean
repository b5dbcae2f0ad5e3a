import RowPipeline.Proofs.SymbolTexts

/-!
Plans as texts and back. A projection of any kind is read back from its text as it is, whatever the
order of the members in the text.
-/

namespace RowPipeline

/-- Assignments of proper symbols, in the order of the columns. -/
structure Symbol.AssignsProper (assignments : Dictionary String Symbol) : Prop where
  ascending : assignments.Ascending
  proper : ∀ assignment ∈ assignments, assignment.2.IsProper

theorem Symbol.AssignsProper.restores {assignments : Dictionary String Symbol}
    (proper : Symbol.AssignsProper assignments) :
    Json.Restores (Json.ofDictionary toJson) (Json.dictionaryOf? ofPart?) assignments :=
  Json.restores_dictionary proper.ascending fun assignment member =>
    Symbol.restores (proper.proper assignment member)

/-! ### What parameters can hold -/

structure OrderedTopN.IsProper (parameters : OrderedTopN) : Prop where
  outputs : Symbol.AllProper parameters.outputs
  orderBy : Symbol.AllProper parameters.orderBy
  limit : ∀ limit ∈ parameters.limit, Json.FitsWord limit
  offset : Json.FitsWord parameters.offset

structure Export.IsProper (parameters : Export) : Prop where
  inputs : Symbol.AllProper parameters.inputs
  ascending : Dictionary.Ascending parameters.overwrites
  overwrites : ∀ overwrite ∈ parameters.overwrites, overwrite.2.Everywhere Value.IsPlain

structure SourceIndexWriter.IsProper (parameters : SourceIndexWriter) : Prop where
  target : parameters.target.IsProper
  source : parameters.source.IsProper
  origin : ∀ origin ∈ parameters.origin, origin.IsProper
  bulkActions : ∀ actions ∈ parameters.bulkActions, Json.FitsWord actions

structure ColumnIndexWriter.IsProper (parameters : ColumnIndexWriter) : Prop where
  target : parameters.target.IsProper
  values : Symbol.AllProper parameters.values
  onDuplicate : ∀ assignments ∈ parameters.onDuplicate, Symbol.AssignsProper assignments
  bulkActions : ∀ actions ∈ parameters.bulkActions, Json.FitsWord actions

structure Update.IsProper (parameters : Update) : Prop where
  uid : parameters.uid.IsProper
  assignments : Symbol.AssignsProper parameters.assignments
  requiredVersion : ∀ version ∈ parameters.requiredVersion, version.IsProper
  bulkActions : ∀ actions ∈ parameters.bulkActions, Json.FitsWord actions

structure Delete.IsProper (parameters : Delete) : Prop where
  uid : parameters.uid.IsProper
  bulkActions : ∀ actions ∈ parameters.bulkActions, Json.FitsWord actions

structure Fetch.IsProper (parameters : Fetch) : Prop where
  idColumn : Json.FitsWord parameters.idColumn
  /-- The number of a reader has 32 bits. -/
  readers : ∀ location ∈ parameters.readers, location.reader < 0x100000000
  size : ∀ size ∈ parameters.size, Json.FitsWord size

structure SystemUpdate.IsProper (parameters : SystemUpdate) : Prop where
  key : parameters.key.IsProper
  assignments : ∀ assignment ∈ parameters.assignments, assignment.value.IsProper

/-- Counts fit their words, dictionaries are in order and literals are plain: what every projection
holds that a document can describe. -/
def Projection.IsProper : Projection → Prop
  | .orderedTopN parameters => parameters.IsProper
  | .topN limit offset => Json.FitsWord limit ∧ Json.FitsWord offset
  | .eval outputs => Symbol.AllProper outputs
  | .filter query => query.IsProper
  | .group keys values _ => Symbol.AllProper keys ∧ ∀ call ∈ values, call.IsProper
  | .aggregation calls _ => ∀ call ∈ calls, call.IsProper
  | .mergeCount => True
  | .writer parameters => parameters.IsProper
  | .sourceIndexWriter parameters => parameters.IsProper
  | .columnIndexWriter parameters => parameters.IsProper
  | .update parameters => parameters.IsProper
  | .delete parameters => parameters.IsProper
  | .fetch parameters => parameters.IsProper
  | .systemUpdate parameters => parameters.IsProper

namespace Projection

/-! ### Names -/

private theorem restores_mode (mode : AggregateMode) :
    Json.Restores (fun mode => .string (AggregateMode.tag mode)) mode? mode :=
  Json.restores_name (by cases mode <;> decide)

private theorem restores_result (result : WriterResult) :
    Json.Restores (fun result => .string (WriterResult.name result)) writerResult? result :=
  Json.restores_name (by cases result <;> decide)

private theorem restores_compression (compression : Compression) :
    Json.Restores (fun compression => .string (Compression.name compression))
      (Json.named? true [.gzip] Compression.name) compression :=
  Json.restores_name (by cases compression; decide)

private theorem restores_format (format : OutputFormat) :
    Json.Restores (fun format => .string (OutputFormat.name format))
      (Json.named? true [.jsonObject, .jsonArray] OutputFormat.name) format :=
  Json.restores_name (by cases format <;> decide)

private theorem restores_calls {calls : List AggregateCall} (proper : ∀ call ∈ calls, call.IsProper) :
    Json.Restores (Json.ofList AggregateCall.toJson) calls? calls :=
  Json.restores_list fun call member => AggregateCall.restores (proper call member)

theorem restores_limit {limit : Option Nat} (fits : ∀ count ∈ limit, Json.FitsWord count) :
    ∀ count ∈ limit, Json.Restores Json.nat Json.count? count :=
  fun count member => Json.restores_count (fits count member)

/-! ### Kinds -/

/-- A projection is read back from its document, its kind being known. -/
abbrev IsRestored (projection : Projection) : Prop :=
  Json.Restores toJson (ofParameters? · projection.kind) projection

/-- The members of a projection come in the order of their names. -/
theorem ascending_members (projection : Projection) :
    Dictionary.Ascending (projection.leadingMembers ++
      ("type", .string projection.kind.name) :: projection.trailingMembers) := by
  cases projection <;> simp +decide [Dictionary.Ascending, leadingMembers, trailingMembers]

private theorem restores_orderedTopN {parameters : OrderedTopN} (proper : parameters.IsProper) :
    (orderedTopN parameters).IsRestored := by
  have outputs := Symbol.restores_list proper.outputs
  have orderBy := Symbol.restores_list proper.orderBy
  have reverseFlags := Json.restores_flags parameters.reverseFlags
  have nullsFirst := Json.restores_flags parameters.nullsFirst
  have limit := restores_limit proper.limit
  have offset := Json.restores_count proper.offset
  refine ⟨⟨ascending_members _, Json.isKept_ofOption limit, nullsFirst.kept, offset.kept, orderBy.kept,
    outputs.kept, reverseFlags.kept, trivial, trivial⟩, ?_⟩
  refine Record.bind_object (ascending_members _) ?_
  refine Record.bind_required rfl rfl outputs.read ?_
  refine Record.bind_required rfl rfl orderBy.read ?_
  refine Record.bind_defaulted rfl rfl reverseFlags.read ?_
  refine Record.bind_defaulted rfl rfl nullsFirst.read ?_
  refine Record.bind_optional rfl rfl nofun limit ?_
  exact Record.bind_defaulted rfl rfl offset.read rfl

theorem restores_topN {limit offset : Nat} (fits : Json.FitsWord limit) (fits' : Json.FitsWord offset) :
    (topN limit offset).IsRestored := by
  have limit := Json.restores_count fits
  have offset := Json.restores_count fits'
  refine ⟨⟨ascending_members _, limit.kept, offset.kept, trivial, trivial⟩, ?_⟩
  refine Record.bind_object (ascending_members _) ?_
  refine Record.bind_required rfl rfl limit.read ?_
  exact Record.bind_defaulted rfl rfl offset.read rfl

private theorem restores_eval {outputs : List Symbol} (proper : Symbol.AllProper outputs) :
    (eval outputs).IsRestored := by
  have outputs := Symbol.restores_list proper
  refine ⟨⟨ascending_members _, outputs.kept, trivial, trivial⟩, ?_⟩
  refine Record.bind_object (ascending_members _) ?_
  exact congrArg (Option.map eval) (Record.required_pick rfl rfl outputs.read)

theorem restores_filter {query : Symbol} (proper : query.IsProper) : (filter query).IsRestored := by
  have query := Symbol.restores proper
  refine ⟨⟨ascending_members _, query.kept, trivial, trivial⟩, ?_⟩
  refine Record.bind_object (ascending_members _) ?_
  exact congrArg (Option.map filter) (Record.required_pick rfl rfl query.read)

private theorem restores_group {keys : List Symbol} {values : List AggregateCall}
    (proper : Symbol.AllProper keys) (proper' : ∀ call ∈ values, call.IsProper) (mode : AggregateMode) :
    (group keys values mode).IsRestored := by
  have keys := Symbol.restores_list proper
  have values := restores_calls proper'
  refine ⟨⟨ascending_members _, keys.kept, trivial, trivial, values.kept, trivial⟩, ?_⟩
  refine Record.bind_object (ascending_members _) ?_
  refine Record.bind_required rfl rfl keys.read ?_
  refine Record.bind_required rfl rfl values.read ?_
  exact Record.bind_defaulted rfl rfl (restores_mode mode).read rfl

private theorem restores_aggregation {calls : List AggregateCall} (proper : ∀ call ∈ calls, call.IsProper)
    (mode : AggregateMode) : (aggregation calls mode).IsRestored := by
  have calls := restores_calls proper
  refine ⟨⟨ascending_members _, calls.kept, trivial, trivial, trivial⟩, ?_⟩
  refine Record.bind_object (ascending_members _) ?_
  refine Record.bind_required rfl rfl calls.read ?_
  exact Record.bind_defaulted rfl rfl (restores_mode mode).read rfl

private theorem restores_mergeCount : mergeCount.IsRestored :=
  ⟨⟨ascending_members _, trivial, trivial⟩, rfl⟩

private theorem restores_writer {parameters : Export} (proper : parameters.IsProper) :
    (writer parameters).IsRestored := by
  have inputs := Symbol.restores_list proper.inputs
  have names := Json.restores_strings parameters.names
  have overwrites : Json.Restores (Json.ofDictionary Value.toJson)
      (Json.dictionaryOf? (some ∘ Value.ofJson)) parameters.overwrites :=
    Json.restores_dictionary proper.ascending fun overwrite member =>
      Value.restores (proper.overwrites overwrite member)
  have compression : ∀ compression ∈ parameters.compression, _ :=
    fun compression _ => restores_compression compression
  refine ⟨⟨ascending_members _, Json.isKept_ofOption compression, inputs.kept, trivial, names.kept,
    overwrites.kept, trivial, trivial, trivial⟩, ?_⟩
  refine Record.bind_object (ascending_members _) ?_
  refine Record.bind_required rfl rfl rfl ?_
  refine Record.bind_optional rfl rfl nofun compression ?_
  refine Record.bind_defaulted rfl rfl (restores_format parameters.format).read ?_
  refine Record.bind_defaulted rfl rfl inputs.read ?_
  refine Record.bind_defaulted rfl rfl names.read ?_
  exact Record.bind_defaulted rfl rfl overwrites.read rfl

theorem restores_sourceIndexWriter {parameters : SourceIndexWriter} (proper : parameters.IsProper) :
    (sourceIndexWriter parameters).IsRestored := by
  have target := IndexTarget.restores proper.target
  have source := Symbol.restores proper.source
  have includes : ∀ names ∈ parameters.includes, _ := fun names _ => Json.restores_strings names
  have excludes : ∀ names ∈ parameters.excludes, _ := fun names _ => Json.restores_strings names
  have origin := fun symbol member => Symbol.restores (proper.origin symbol member)
  have bulkActions := restores_limit proper.bulkActions
  have result := restores_result parameters.result
  refine ⟨⟨ascending_members _, Json.isKept_ofOption bulkActions, Json.isKept_ofOption excludes,
    Json.isKept_ofOption includes, trivial, source.kept, trivial, Json.isKept_ofOption origin,
    target.kept, trivial, trivial⟩, ?_⟩
  refine Record.bind_object (ascending_members _) ?_
  refine Record.bind_required rfl rfl target.read ?_
  refine Record.bind_required rfl rfl source.read ?_
  refine Record.bind_optional rfl rfl nofun includes ?_
  refine Record.bind_optional rfl rfl nofun excludes ?_
  refine Record.bind_defaulted rfl rfl rfl ?_
  refine Record.bind_optional rfl rfl Symbol.toJson_ne_null origin ?_
  refine Record.bind_optional rfl rfl nofun bulkActions ?_
  exact Record.bind_defaulted rfl rfl result.read rfl

theorem restores_columnIndexWriter {parameters : ColumnIndexWriter} (proper : parameters.IsProper) :
    (columnIndexWriter parameters).IsRestored := by
  have target := IndexTarget.restores proper.target
  have columns := Json.restores_strings parameters.columns
  have values := Symbol.restores_list proper.values
  have onDuplicate := fun assignments member => (proper.onDuplicate assignments member).restores
  have bulkActions := restores_limit proper.bulkActions
  have result := restores_result parameters.result
  refine ⟨⟨ascending_members _, Json.isKept_ofOption bulkActions, values.kept, columns.kept, trivial,
    Json.isKept_ofOption onDuplicate, trivial, target.kept, trivial, trivial⟩, ?_⟩
  refine Record.bind_object (ascending_members _) ?_
  refine Record.bind_required rfl rfl target.read ?_
  refine Record.bind_required rfl rfl columns.read ?_
  refine Record.bind_required rfl rfl values.read ?_
  refine Record.bind_optional rfl rfl nofun onDuplicate ?_
  refine Record.bind_defaulted rfl rfl rfl ?_
  refine Record.bind_optional rfl rfl nofun bulkActions ?_
  exact Record.bind_defaulted rfl rfl result.read rfl

private theorem restores_update {parameters : Update} (proper : parameters.IsProper) :
    (update parameters).IsRestored := by
  have uid := Symbol.restores proper.uid
  have assignments := proper.assignments.restores
  have requiredVersion := fun symbol member => Symbol.restores (proper.requiredVersion symbol member)
  have bulkActions := restores_limit proper.bulkActions
  refine ⟨⟨ascending_members _, assignments.kept, Json.isKept_ofOption bulkActions,
    Json.isKept_ofOption requiredVersion, trivial, uid.kept, trivial⟩, ?_⟩
  refine Record.bind_object (ascending_members _) ?_
  refine Record.bind_required rfl rfl uid.read ?_
  refine Record.bind_required rfl rfl assignments.read ?_
  refine Record.bind_optional rfl rfl Symbol.toJson_ne_null requiredVersion ?_
  exact Record.bind_optional rfl rfl nofun bulkActions rfl

private theorem restores_delete {parameters : Delete} (proper : parameters.IsProper) :
    (delete parameters).IsRestored := by
  have uid := Symbol.restores proper.uid
  have bulkActions := restores_limit proper.bulkActions
  refine ⟨⟨ascending_members _, Json.isKept_ofOption bulkActions, trivial, uid.kept, trivial⟩, ?_⟩
  refine Record.bind_object (ascending_members _) ?_
  refine Record.bind_required rfl rfl uid.read ?_
  exact Record.bind_optional rfl rfl nofun bulkActions rfl

private theorem restores_fetch {parameters : Fetch} (proper : parameters.IsProper) :
    (fetch parameters).IsRestored := by
  have idColumn := Json.restores_count proper.idColumn
  have columns := Json.restores_strings parameters.columns
  have readers : Json.Restores (Json.ofList ReaderLocation.toJson)
      (Json.arrayOf? ReaderLocation.ofJson?) parameters.readers :=
    Json.restores_list fun location member => ReaderLocation.restores (proper.readers location member)
  have size := restores_limit proper.size
  refine ⟨⟨ascending_members _, columns.kept, idColumn.kept, Json.isKept_ofOption size, readers.kept,
    trivial, trivial⟩, ?_⟩
  refine Record.bind_object (ascending_members _) ?_
  refine Record.bind_required rfl rfl idColumn.read ?_
  refine Record.bind_required rfl rfl columns.read ?_
  refine Record.bind_required rfl rfl readers.read ?_
  exact Record.bind_optional rfl rfl nofun size rfl

private theorem restores_systemUpdate {parameters : SystemUpdate} (proper : parameters.IsProper) :
    (systemUpdate parameters).IsRestored := by
  have key := Symbol.restores proper.key
  have assignments : Json.Restores (Json.ofList SystemAssignment.toJson)
      (Json.arrayOf? SystemAssignment.ofJson?) parameters.assignments :=
    Json.restores_list fun assignment member =>
      SystemAssignment.restores (proper.assignments assignment member)
  refine ⟨⟨ascending_members _, assignments.kept, key.kept, trivial, trivial⟩, ?_⟩
  refine Record.bind_object (ascending_members _) ?_
  refine Record.bind_required rfl rfl key.read ?_
  exact Record.bind_required rfl rfl assignments.read rfl

theorem restores {projection : Projection} (proper : projection.IsProper) : projection.IsRestored := by
  cases projection with
  | orderedTopN parameters => exact restores_orderedTopN proper
  | topN limit offset => exact restores_topN proper.1 proper.2
  | eval outputs => exact restores_eval proper
  | filter query => exact restores_filter proper
  | group keys values mode => exact restores_group proper.1 proper.2 mode
  | aggregation calls mode => exact restores_aggregation proper mode
  | mergeCount => exact restores_mergeCount
  | writer parameters => exact restores_writer proper
  | sourceIndexWriter parameters => exact restores_sourceIndexWriter proper
  | columnIndexWriter parameters => exact restores_columnIndexWriter proper
  | update parameters => exact restores_update proper
  | delete parameters => exact restores_delete proper
  | fetch parameters => exact restores_fetch proper
  | systemUpdate parameters => exact restores_systemUpdate proper

/-! ### Texts -/

theorem tag?_toJson (projection : Projection) : tag? projection.toJson = some projection.kind.name := by
  cases projection <;> rfl

theorem find?_name (kind : StageKind) : StageKind.all.find? (·.name == kind.name) = some kind := by
  cases kind <;> decide

theorem ofJson_toJson {projection : Projection} (proper : projection.IsProper) :
    ofJson projection.toJson = .ok projection := by
  rw [ofJson, tag?_toJson]
  dsimp only
  rw [find?_name]
  dsimp only
  rw [(restores proper).read]

/-- A projection is read back from its text as it is, and so it is from every text of the same members
in another order. The doubles of its literals come back as `Double.ofDecimal?` reads the nearest one. -/
theorem parse_text {projection : Projection} (proper : projection.IsProper)
    (shallow : projection.toJson.height ≤ Json.depthLimit) :
    parse projection.toJson.text = .ok projection ∧
      (parse projection.toJson.text).map (fun again => again.toJson.text) =
        .ok projection.toJson.text ∧
      ∀ json : Json, json.IsReadable → json.height ≤ Json.depthLimit →
        json.canonical = projection.toJson → parse json.text = .ok projection := by
  have reordered : ∀ json : Json, json.IsReadable → json.height ≤ Json.depthLimit →
      json.canonical = projection.toJson → parse json.text = .ok projection := by
    intro json readable shallow same
    rw [parse, document_text readable shallow, same]
    exact ofJson_toJson proper
  have kept := (restores proper).kept
  have own := reordered projection.toJson kept.isReadable shallow kept.canonical_eq
  refine ⟨own, ?_, reordered⟩
  rw [own]
  rfl

/-- Literals in calls and in a list of calls, with numbers of both types, a negative zero and an
object, assignments that may be left out, and counts that are as great as they can be. -/
theorem parse_text_nested :
    let literal : Value := .array [.long 1, .double ⟨0x3ff0000000000000⟩, .double ⟨0x8000000000000000⟩,
      .object [("a", .null), ("b", .text "\"é")]]
    let symbol : Symbol := .call .concat [.input 0xffffffffffffffff, .call .isNull [.literal literal]]
    let target : IndexTarget := ⟨"t", [symbol], none, [.literal (.long (-5))], true⟩
    let projection : Projection := .columnIndexWriter
      ⟨target, ["x", "y"], [symbol, .input 0], some [("x", symbol)], false, some 7, .returnSummary⟩
    projection.IsProper ∧ projection.toJson.height ≤ Json.depthLimit ∧
      parse projection.toJson.text = .ok projection := by
  intro literal symbol target projection
  have plain : literal.Everywhere Value.IsPlain := by
    simp only [literal, Value.ItemsEverywhere, Value.Everywhere, Value.FieldsEverywhere,
      Value.FieldEverywhere, Value.IsPlain, Value.HasOrder, Value.IsFinite, Dictionary.Ascending]
    decide +kernel
  have column (index : Nat) (fits : Json.FitsWord index) : (Symbol.input index).IsProper := fits
  have proper : symbol.IsProper := ⟨column _ (by decide), ⟨plain, trivial⟩, trivial⟩
  have assigned : Symbol.AssignsProper [("x", symbol)] :=
    ⟨List.pairwise_singleton _ _, by simpa using proper⟩
  have whole : projection.IsProper :=
    ⟨⟨⟨proper, trivial⟩, by simp [target], ⟨⟨trivial, trivial⟩, trivial⟩⟩, ⟨proper, column _ (by decide), trivial⟩,
      by simpa using assigned, by simp⟩
  have shallow : projection.toJson.height ≤ Json.depthLimit := by decide
  exact ⟨whole, shallow, (parse_text whole shallow).1⟩

end Projection

end RowPipeline
