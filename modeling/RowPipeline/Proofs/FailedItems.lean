import RowPipeline.Proofs.Imprints

/-!
Items of bulk requests that fail. They leave no trace: without them the same documents are left behind,
and the other items still succeed.
-/

namespace RowPipeline

/-- The items of a request that succeeded, by the answers to all of them. -/
def BulkRequest.succeeded (request : BulkRequest) (results : List ItemResult) : List BulkItem :=
  ((request.items.zip results).filter fun (_, result) => result.error.isNone).map (·.1)

/-- A request without the items that failed. -/
def BulkRequest.withoutFailed (request : BulkRequest) (results : List ItemResult) : BulkRequest :=
  { request with items := request.succeeded results }

/-- The answer to an item that succeeds. -/
def BulkItem.success (item : BulkItem) : ItemResult := ⟨item.location, none⟩

namespace BulkRequest

variable (shard : ShardId) (options : BulkOptions) (item : BulkItem) (rest : List BulkItem)
  {result : ItemResult} (results : List ItemResult)

private theorem succeeded_cons_of_success (success : result.error.isNone = true) :
    succeeded ⟨shard, options, item :: rest⟩ (result :: results) =
      item :: succeeded ⟨shard, options, rest⟩ results := by
  simp [succeeded, success]

private theorem succeeded_cons_of_failure (failure : result.error.isNone = false) :
    succeeded ⟨shard, options, item :: rest⟩ (result :: results) =
      succeeded ⟨shard, options, rest⟩ results := by
  simp [succeeded, failure]

private theorem succeeded_of_all_failed (request : BulkRequest) (message : BulkItem → String) :
    request.succeeded (request.items.map fun item => ⟨item.location, some (message item)⟩) = [] := by
  unfold succeeded
  rw [List.map_eq_nil_iff, List.filter_eq_nil_iff, List.zip_map_right]
  intro pair member
  obtain ⟨source, -, rfl⟩ := List.mem_map.mp member
  exact Bool.false_ne_true

end BulkRequest

/-! ### Documents -/

namespace Documents

variable (options : BulkOptions)

/-- An item either succeeds or leaves the documents as they are. -/
theorem applyItem_cases (documents : Documents) (item : BulkItem) :
    (documents.applyItem options item).2 = item.success ∨
      (documents.applyItem options item).1 = documents ∧
        (documents.applyItem options item).2.error.isNone = false := by
  unfold applyItem
  split
  · exact .inl rfl
  · exact .inr ⟨rfl, rfl⟩

/-- The items that succeed do so without the others, and leave the same documents behind. -/
theorem applyAll_succeeded (shard : ShardId) (items : List BulkItem) (documents : Documents) :
    let (changed, results) := applyAll options items documents
    let kept := BulkRequest.succeeded ⟨shard, options, items⟩ results
    applyAll options kept documents = (changed, kept.map BulkItem.success) := by
  induction items generalizing documents with
  | nil => rfl
  | cons item rest ih =>
    dsimp only [applyAll]
    rcases applyItem_cases options documents item with success | ⟨same, failure⟩
    · -- Both runs apply the item to the same documents.
      rw [BulkRequest.succeeded_cons_of_success shard options item rest _ (success ▸ rfl)]
      dsimp only [applyAll]
      rw [ih, success]
      rfl
    · rw [BulkRequest.succeeded_cons_of_failure shard options item rest _ failure, same]
      exact ih documents

private theorem get?_applyAll_of_forall_ne {items : List BulkItem} {id : String}
    (unaddressed : ∀ item ∈ items, item.id ≠ id) (documents : Documents) :
    (applyAll options items documents).1.get? id = documents.get? id := by
  induction items generalizing documents with
  | nil => rfl
  | cons item rest ih =>
    calc (applyAll options (item :: rest) documents).1.get? id
        = (documents.applyItem options item).1.get? id :=
          ih (fun other member => unaddressed other (.tail _ member)) _
      _ = documents.get? id :=
          get?_applyItem_of_ne documents item (unaddressed item List.mem_cons_self).symm

end Documents

/-! ### Requests -/

namespace LocalCluster

/-- A cluster in which the documents that a request addresses may have changed, and no others. -/
structure Framed (request : BulkRequest) (before after : LocalCluster) : Prop where
  others : ∀ index ≠ request.shard.index, after.indices.get? index = before.indices.get? index
  unaddressed : ∀ id, (∀ item ∈ request.items, item.id ≠ id) →
    ∀ index, after.document? index id = before.document? index id

namespace Framed

variable {request : BulkRequest} {before after : LocalCluster}

private theorem of_unchanged (same : after.indices = before.indices) : Framed request before after := by
  refine ⟨fun index _ => by rw [same], fun id _ index => ?_⟩
  rw [document?, document?, LocalCluster.documents, LocalCluster.documents, same]

theorem of_insert {documents : Documents}
    (found : before.indices.get? request.shard.index = some documents)
    (changed : after.indices = before.indices.insert request.shard.index
      (Documents.applyAll request.options request.items documents).1) :
    Framed request before after := by
  refine ⟨fun index other => ?_, fun id unaddressed index => ?_⟩
  · rw [changed, Dictionary.get?_insert, if_neg other]
  · by_cases own : index = request.shard.index
    · simp [document?, LocalCluster.documents, changed, own, found,
        Documents.get?_applyAll_of_forall_ne request.options unaddressed]
    · simp [document?, LocalCluster.documents, changed, Dictionary.get?_insert, own]

end Framed

/-- A request fails as a whole and changes no documents, or every item gets an answer, in order. In
that case the items that failed leave no trace: the others alone all succeed and leave the same
documents behind. -/
theorem applyBulk_without_failed_items (cluster : LocalCluster) (node : NodeName)
    (request : BulkRequest) :
    let (answer, after) := cluster.applyBulk node request
    if cluster.failingShards.contains request.shard then
      answer = .error (.transport (.shardUnavailable request.shard)) ∧
        after.indices = cluster.indices
    else
      ∃ results, answer = .ok results ∧
        results.map (·.location) = request.items.map (·.location) ∧
        (cluster.applyBulk node (request.withoutFailed results)).1 =
          .ok ((request.succeeded results).map BulkItem.success) ∧
        (cluster.applyBulk node (request.withoutFailed results)).2.indices = after.indices ∧
        Framed request cluster after := by
  dsimp only
  split
  next fails => exact applyBulk_of_failing fails
  next answers =>
    have answers := eq_false_of_ne_true answers
    cases found : cluster.indices.get? request.shard.index with
    | none =>
      obtain ⟨answer, same⟩ := @applyBulk_of_missing cluster node request answers found
      obtain ⟨answer', same'⟩ :=
        @applyBulk_of_missing cluster node (request.withoutFailed _) answers found
      refine ⟨_, answer, by simp, answer'.trans ?_, same'.trans same.symm, .of_unchanged same⟩
      rw [BulkRequest.withoutFailed, BulkRequest.succeeded_of_all_failed]
      rfl
    | some documents =>
      obtain ⟨answer, changed⟩ := @applyBulk_of_found cluster node request answers documents found
      obtain ⟨answer', changed'⟩ :=
        @applyBulk_of_found cluster node (request.withoutFailed _) answers documents found
      have alone := Documents.applyAll_succeeded request.options request.shard request.items documents
      refine ⟨_, answer, Documents.applyAll_locations _ _ _, answer'.trans ?_, changed'.trans ?_,
        .of_insert found changed⟩
      · exact congrArg (fun outcome => Except.ok outcome.2) alone
      · rw [changed]
        exact congrArg (fun outcome => cluster.indices.insert request.shard.index outcome.1) alone

end LocalCluster

end RowPipeline
