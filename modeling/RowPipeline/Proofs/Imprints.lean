import Mathlib.Logic.Function.Basic
import RowPipeline.Proofs.ItemOutcomes

/-!
What writing leaves behind: which indices there are, their documents and the summary of the writer.
Items of different documents may land in either order, and a request leaves behind what its items
would, one after the other.
-/

namespace RowPipeline

structure Imprint where
  found : String → Bool
  /-- The documents by index and id. -/
  document : String × String → Option StoredDocument
  summary : BulkSummary

/-- What stays as it is while something is written. -/
structure WriteTerms where
  options : BulkOptions
  createsIndices : Bool
  /-- The indices that count as created from the start. -/
  created : List String
  /-- The cluster before anything is written. -/
  start : LocalCluster

/-- Whether an index is there once something is to be written to it. -/
def WriteTerms.stands (terms : WriteTerms) (index : String) : Bool :=
  terms.start.indexExists index || (terms.createsIndices && !terms.created.contains index)

/-- An item on the way to its shard. -/
structure RoutedItem where
  target : ShardTarget
  pending : PendingItem

namespace RoutedItem

/-- The index and the id of the document that an item addresses. -/
def key (routed : RoutedItem) : String × String :=
  (routed.target.shard.index, routed.pending.item.id)

end RoutedItem

def Dispatch.routed (dispatch : Dispatch) : List RoutedItem :=
  dispatch.items.map fun pending => ⟨⟨dispatch.shard, dispatch.node⟩, pending⟩

/-- What becomes of a document, and the message if the item for it fails. -/
def WriteTerms.outcome (terms : WriteTerms) (shard : ShardId) (item : BulkItem)
    (document : Option StoredDocument) : Option StoredDocument × Option String :=
  if terms.start.failingShards.contains shard then
    (document, some (ItemFault.request (.transport (.shardUnavailable shard))).message)
  else if terms.stands shard.index then item.outcome terms.options document
  else (document, some (ItemFault.indexMissing shard.index).message)

namespace Imprint

def of (cluster : LocalCluster) (summary : BulkSummary) : Imprint :=
  ⟨cluster.indexExists, fun (index, id) => cluster.document? index id, summary⟩

def record (imprint : Imprint) (account : Account) : Imprint :=
  { imprint with summary := imprint.summary.recordAccount account }

def land (terms : WriteTerms) (imprint : Imprint) (routed : RoutedItem) : Imprint :=
  let shard := routed.target.shard
  let result := terms.outcome shard routed.pending.item (imprint.document routed.key)
  { found := fun index => imprint.found index || (index == shard.index && terms.stands shard.index)
    document := Function.update imprint.document routed.key result.1
    summary := imprint.summary.recordAccount (routed.pending.account routed.target.node result.2) }

def landAll (terms : WriteTerms) (imprint : Imprint) (routed : List RoutedItem) : Imprint :=
  routed.foldl (land terms) imprint

variable {terms : WriteTerms}

/-- Items of different documents may land in either order. -/
theorem land_comm (imprint : Imprint) {first second : RoutedItem} (different : first.key ≠ second.key) :
    (imprint.land terms first).land terms second = (imprint.land terms second).land terms first := by
  simp only [land, Function.update_of_ne different, Function.update_of_ne different.symm, mk.injEq]
  refine ⟨?_, Function.update_comm different _ _ _, BulkSummary.recordAccount_comm _ _ _⟩
  funext index
  exact Bool.or_right_comm ..

/-- What lands does not depend on the number of an item. -/
theorem land_renumber (imprint : Imprint) (target : ShardTarget) (item : BulkItem)
    (origin : Option String) (location : Nat) :
    imprint.land terms ⟨target, ⟨{ item with location := location }, origin⟩⟩ =
      imprint.land terms ⟨target, ⟨item, origin⟩⟩ := by
  have same (document : Option StoredDocument) :
      terms.outcome target.shard { item with location := location } document =
        terms.outcome target.shard item document := by
    simp only [WriteTerms.outcome, BulkItem.outcome_renumber]
  simp only [land, same]
  rfl

/-- An index is there from now on. -/
def find (index : String) (imprint : Imprint) : Imprint :=
  { imprint with found := fun other => imprint.found other || other == index }

theorem landAll_find {index : String} (stands : terms.stands index = true) {routed : List RoutedItem}
    (some_ : ∃ item ∈ routed, item.target.shard.index = index) (imprint : Imprint) :
    (imprint.find index).landAll terms routed = imprint.landAll terms routed := by
  induction routed generalizing imprint with
  | nil => simp at some_
  | cons item rest ih =>
    by_cases own : item.target.shard.index = index
    · have same : (imprint.find index).land terms item = imprint.land terms item := by
        simp only [land, find, own, stands, Bool.and_true, Bool.or_assoc, Bool.or_self]
      exact congrArg (landAll terms · rest) same
    · have later : (imprint.find index).land terms item = (imprint.land terms item).find index := by
        simp only [land, find, mk.injEq, and_true]
        funext other
        exact Bool.or_right_comm ..
      have others : ∃ item ∈ rest, item.target.shard.index = index := by
        obtain ⟨other, member, there⟩ := some_
        rcases List.mem_cons.mp member with rfl | member
        · exact absurd there own
        · exact ⟨other, member, there⟩
      exact (congrArg (landAll terms · rest) later).trans (ih others (imprint.land terms item))

private theorem record_land (imprint : Imprint) (account : Account) (routed : RoutedItem) :
    (imprint.record account).land terms routed = (imprint.land terms routed).record account := by
  unfold land record
  simp only [mk.injEq, true_and]
  exact BulkSummary.recordAccount_comm _ _ _

@[simp]
theorem landAll_cons (imprint : Imprint) (item : RoutedItem) (rest : List RoutedItem) :
    imprint.landAll terms (item :: rest) = (imprint.land terms item).landAll terms rest := rfl

theorem record_landAll (imprint : Imprint) (account : Account) (routed : List RoutedItem) :
    (imprint.record account).landAll terms routed = (imprint.landAll terms routed).record account := by
  induction routed generalizing imprint with
  | nil => rfl
  | cons item rest ih => rw [landAll_cons, landAll_cons, record_land, ih]

@[simp]
theorem landAll_append (imprint : Imprint) (first second : List RoutedItem) :
    imprint.landAll terms (first ++ second) = (imprint.landAll terms first).landAll terms second :=
  List.foldl_append

/-- Lists of items without a document in common may land in either order. -/
theorem landAll_comm (imprint : Imprint) {first second : List RoutedItem}
    (different : ∀ item ∈ first, ∀ other ∈ second, item.key ≠ other.key) :
    (imprint.landAll terms first).landAll terms second =
      (imprint.landAll terms second).landAll terms first := by
  have single (imprint : Imprint) (item : RoutedItem) (others : List RoutedItem)
      (different : ∀ other ∈ others, item.key ≠ other.key) :
      (imprint.land terms item).landAll terms others =
        (imprint.landAll terms others).land terms item := by
    induction others generalizing imprint with
    | nil => rfl
    | cons other rest ih =>
      rw [landAll_cons, landAll_cons, land_comm imprint (different other List.mem_cons_self)]
      exact ih _ fun other member => different other (.tail _ member)
  induction first generalizing imprint with
  | nil => rfl
  | cons item rest ih =>
    have later := ih (imprint.land terms item) fun other member => different other (.tail _ member)
    rw [landAll_cons, landAll_cons, later,
      single imprint item second (different item List.mem_cons_self)]

/-! ### Clusters -/

theorem of_congr {cluster cluster' : LocalCluster} (same : cluster'.indices = cluster.indices)
    (summary : BulkSummary) : of cluster' summary = of cluster summary := by
  unfold of LocalCluster.indexExists LocalCluster.document? LocalCluster.documents
  rw [same]

/-- An index that is created has no documents. -/
theorem of_createIndex {cluster : LocalCluster} {index : String}
    (missing : cluster.indexExists index = false) (summary : BulkSummary) :
    of (cluster.createIndex index) summary = (of cluster summary).find index := by
  have missing : cluster.indices.get? index = none := by
    simpa [LocalCluster.indexExists, Dictionary.contains] using missing
  have looked (other : String) : (cluster.createIndex index).indices.get? other =
      if other = index then some [] else cluster.indices.get? other := by
    unfold LocalCluster.createIndex LocalCluster.addIndex
    by_cases same : other = index
    · rw [if_pos same, same, Dictionary.get?_alter_of_none _ missing]
      rfl
    · rw [if_neg same, Dictionary.get?_alter_of_ne _ _ same]
  simp only [of, find, mk.injEq, and_true]
  refine ⟨?_, ?_⟩
  · funext other
    by_cases same : other = index <;>
      simp [LocalCluster.indexExists, Dictionary.contains, looked, same]
  · funext key
    by_cases same : key.1 = index <;>
      simp [LocalCluster.document?, LocalCluster.documents, looked, same, missing]

def recordAll (imprint : Imprint) (accounts : List Account) : Imprint :=
  { imprint with summary := imprint.summary.recordAll accounts }

private theorem found_or_stands {imprint : Imprint} {index : String}
    (stands : imprint.found index = terms.stands index) :
    (fun other => imprint.found other || (other == index && terms.stands index)) = imprint.found := by
  funext other
  by_cases same : other = index <;> simp [same, stands]

/-- Items that fail whatever there is leave nothing behind but their accounts. -/
theorem landAll_of_refused {imprint : Imprint} {dispatch : Dispatch} {message : String}
    (stands : imprint.found dispatch.shard.index = terms.stands dispatch.shard.index)
    (refused : ∀ item document, terms.outcome dispatch.shard item document = (document, some message)) :
    imprint.landAll terms dispatch.routed =
      imprint.recordAll (dispatch.items.map (·.account dispatch.node (some message))) := by
  unfold Dispatch.routed
  generalize dispatch.items = items
  induction items generalizing imprint with
  | nil => rfl
  | cons pending rest ih =>
    have landed : imprint.land terms ⟨⟨dispatch.shard, dispatch.node⟩, pending⟩ =
        imprint.record (pending.account dispatch.node (some message)) := by
      simp only [land, record, refused, Function.update_eq_self, mk.injEq, and_true]
      exact found_or_stands stands
    rw [List.map_cons, landAll_cons, landed, ih (by simpa [record] using stands)]
    rfl

/-- An imprint with other documents in an index. -/
def holding (imprint : Imprint) (index : String) (documents : Documents) : Imprint :=
  { imprint with
    document := fun key => if key.1 = index then documents.get? key.2 else imprint.document key }

private theorem land_holding {imprint : Imprint} (target : ShardTarget)
    (stands : imprint.found target.shard.index = terms.stands target.shard.index)
    (applied : ∀ item document,
      terms.outcome target.shard item document = item.outcome terms.options document)
    (documents : Documents) (pending : PendingItem) :
    (imprint.holding target.shard.index documents).land terms ⟨target, pending⟩ =
      (imprint.record (pending.account target.node
        (documents.applyItem terms.options pending.item).2.error)).holding target.shard.index
          (documents.applyItem terms.options pending.item).1 := by
  have outcome := Documents.applyItem_outcome terms.options documents pending.item
  simp only [land, holding, record, applied, RoutedItem.key, if_true, ← outcome, mk.injEq, and_true]
  refine ⟨found_or_stands stands, ?_⟩
  funext key
  by_cases index : key.1 = target.shard.index
  · by_cases id : key.2 = pending.item.id
    · obtain rfl : key = (target.shard.index, pending.item.id) := Prod.ext index id
      simp
    · have other : key ≠ (target.shard.index, pending.item.id) := fun same => id (congrArg Prod.snd same)
      simp [Function.update_of_ne other, index, Documents.get?_applyItem_of_ne _ _ id]
  · have other : key ≠ (target.shard.index, pending.item.id) :=
      fun same => index (congrArg Prod.fst same)
    simp [Function.update_of_ne other, index]

/-- Items that are applied one after the other leave the documents of their index behind. -/
theorem landAll_holding {imprint : Imprint} {dispatch : Dispatch}
    (stands : imprint.found dispatch.shard.index = terms.stands dispatch.shard.index)
    (applied : ∀ item document,
      terms.outcome dispatch.shard item document = item.outcome terms.options document)
    (documents : Documents) :
    (imprint.holding dispatch.shard.index documents).landAll terms dispatch.routed =
      (imprint.recordAll (List.zipWith (fun pending result => pending.account dispatch.node result.error)
        dispatch.items (Documents.applyAll terms.options (dispatch.items.map (·.item)) documents).2)).holding
          dispatch.shard.index
          (Documents.applyAll terms.options (dispatch.items.map (·.item)) documents).1 := by
  unfold Dispatch.routed
  generalize dispatch.items = items
  induction items generalizing imprint documents with
  | nil => rfl
  | cons pending rest ih =>
    have landed := land_holding ⟨dispatch.shard, dispatch.node⟩ stands applied documents pending
    rw [List.map_cons, landAll_cons, landed, ih (by simpa [record] using stands)]
    rfl

end Imprint

/-! ### Requests -/

namespace LocalCluster

variable {cluster : LocalCluster} {node : NodeName} {request : BulkRequest}

theorem applyBulk_of_failing (fails : cluster.failingShards.contains request.shard = true) :
    (cluster.applyBulk node request).1 = .error (.transport (.shardUnavailable request.shard)) ∧
      (cluster.applyBulk node request).2.indices = cluster.indices := by
  unfold applyBulk
  dsimp only
  rw [if_pos fails]
  exact ⟨rfl, rfl⟩

theorem applyBulk_of_missing (answers : cluster.failingShards.contains request.shard = false)
    (missing : cluster.indices.get? request.shard.index = none) :
    (cluster.applyBulk node request).1 = .ok (request.items.map fun item =>
        ⟨item.location, some (ItemFault.indexMissing request.shard.index).message⟩) ∧
      (cluster.applyBulk node request).2.indices = cluster.indices := by
  unfold applyBulk
  dsimp only
  rw [if_neg (ne_true_of_eq_false answers), missing]
  exact ⟨rfl, rfl⟩

theorem applyBulk_of_found (answers : cluster.failingShards.contains request.shard = false)
    {documents : Documents} (found : cluster.indices.get? request.shard.index = some documents) :
    (cluster.applyBulk node request).1 =
        .ok (Documents.applyAll request.options request.items documents).2 ∧
      (cluster.applyBulk node request).2.indices = cluster.indices.insert request.shard.index
        (Documents.applyAll request.options request.items documents).1 := by
  unfold applyBulk
  dsimp only
  rw [if_neg (ne_true_of_eq_false answers), found]
  exact ⟨rfl, rfl⟩

end LocalCluster

namespace Imprint

variable {terms : WriteTerms} {cluster : LocalCluster}

theorem of_insert {cluster' : LocalCluster} {index : String} {documents : Documents}
    (found : cluster.indexExists index = true)
    (changed : cluster'.indices = cluster.indices.insert index documents) (summary : BulkSummary) :
    of cluster' summary = (of cluster summary).holding index documents := by
  simp only [of, holding, mk.injEq, and_true]
  constructor
  · funext other
    by_cases same : other = index <;>
      simp_all [LocalCluster.indexExists, Dictionary.contains, Dictionary.get?_insert]
  · funext key
    by_cases same : key.1 = index <;>
      simp [LocalCluster.document?, LocalCluster.documents, changed, Dictionary.get?_insert, same]

private theorem holding_self {index : String} {documents : Documents}
    (found : cluster.indices.get? index = some documents) (summary : BulkSummary) :
    (of cluster summary).holding index documents = of cluster summary := by
  simp only [of, holding, mk.injEq, true_and, and_true]
  funext key
  by_cases same : key.1 = index <;>
    simp [LocalCluster.document?, LocalCluster.documents, found, same]

/-- A request leaves behind what its items would, one after the other. -/
theorem of_applyBulk {dispatch : Dispatch} (summary : BulkSummary)
    (failing : cluster.failingShards = terms.start.failingShards)
    (stands : cluster.indexExists dispatch.shard.index = terms.stands dispatch.shard.index)
    (distinct : (dispatch.items.map (·.item.location)).Nodup) :
    of (cluster.applyBulk dispatch.node (dispatch.request terms.options)).2
        (summary.recordAll (BulkOutcome.accounts
          ⟨dispatch, (cluster.applyBulk dispatch.node (dispatch.request terms.options)).1⟩)) =
      (of cluster summary).landAll terms dispatch.routed := by
  let request := dispatch.request terms.options
  cases fails : cluster.failingShards.contains dispatch.shard with
  | true =>
    obtain ⟨answer, same⟩ :=
      @LocalCluster.applyBulk_of_failing cluster dispatch.node request fails
    have refused : ∀ item document, terms.outcome dispatch.shard item document =
        (document, some (ItemFault.request (.transport (.shardUnavailable dispatch.shard))).message) := by
      intro item document
      rw [WriteTerms.outcome, ← failing, if_pos fails]
    rw [landAll_of_refused stands refused, answer, BulkOutcome.accounts_of_error, of_congr same]
    rfl
  | false =>
    cases found : cluster.indices.get? dispatch.shard.index with
    | none =>
      obtain ⟨answer, same⟩ :=
        @LocalCluster.applyBulk_of_missing cluster dispatch.node request fails found
      have lost : terms.stands dispatch.shard.index = false := by
        rw [← stands]
        simp [LocalCluster.indexExists, Dictionary.contains, found]
      have refused : ∀ item document, terms.outcome dispatch.shard item document =
          (document, some (ItemFault.indexMissing dispatch.shard.index).message) := by
        intro item document
        rw [WriteTerms.outcome, ← failing, if_neg (ne_true_of_eq_false fails),
          if_neg (ne_true_of_eq_false lost)]
      have located : (request.items.map fun item =>
          (⟨item.location, some (ItemFault.indexMissing request.shard.index).message⟩ : ItemResult)).map
            (·.location) = dispatch.items.map (·.item.location) := by
        simp [request, Dispatch.request]
      rw [landAll_of_refused stands refused, answer,
        BulkOutcome.accounts_of_ok dispatch located distinct, of_congr same]
      simp [request, Dispatch.request, List.zipWith_map_right, recordAll, of]
    | some documents =>
      obtain ⟨answer, changed⟩ :=
        @LocalCluster.applyBulk_of_found cluster dispatch.node request fails documents found
      have there : cluster.indexExists dispatch.shard.index = true := by
        simp [LocalCluster.indexExists, Dictionary.contains, found]
      have applied : ∀ item document,
          terms.outcome dispatch.shard item document = item.outcome terms.options document := by
        intro item document
        rw [WriteTerms.outcome, ← failing, if_neg (ne_true_of_eq_false fails), ← stands, if_pos there]
      have located : (Documents.applyAll request.options request.items documents).2.map (·.location) =
          dispatch.items.map (·.item.location) := by
        rw [Documents.applyAll_locations]
        simp [request, Dispatch.request]
      rw [answer, BulkOutcome.accounts_of_ok dispatch located distinct, of_insert there changed,
        ← holding_self found summary, landAll_holding stands applied]
      rfl

end Imprint

end RowPipeline
