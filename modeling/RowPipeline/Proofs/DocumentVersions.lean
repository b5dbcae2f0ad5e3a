import RowPipeline.Proofs.AscendingKeys
import RowPipeline.Proofs.ForeseenWrites
import RowPipeline.Proofs.Histories

/-!
The version of a document counts the changes to it. Whatever is asked of a cluster, and in whichever
order, no two updates that require the same version of a document both succeed.
-/

namespace RowPipeline

/-! ### What is asked of a cluster, and the items it serves -/

/-- What can be asked of a cluster by any of its users. -/
inductive ClusterCall where
  | bulk (node : NodeName) (timeout : Nat) (request : BulkRequest)
  | fetch (request : FetchRequest)
  /-- A request gets to its node. -/
  | accept (node : NodeName)
  | createIndex (index : String)
  /-- An index is put there without a request. -/
  | addIndex (index : String)
  | failShard (shard : ShardId)
  | failFetchNode (node : NodeName)
  | addFetchDocument (id : Nat) (fields : Fields)

/-- An item that was served, with the index and the options of its request. -/
structure ServedItem where
  index : String
  options : BulkOptions
  item : BulkItem
  /-- Why the item failed; nothing if it succeeded. -/
  error : Option String

namespace ServedItem

/-- Whether an item succeeded on a document. -/
def reaches (index id : String) (served : ServedItem) : Bool :=
  served.index == index && served.item.id == id && served.error.isNone

/-- Whether an operation is one that changes a document that is there. -/
def changes (options : BulkOptions) : BulkOperation → Bool
  | .index _ => options.overwritesDuplicates
  | .insert _ _ onDuplicate => onDuplicate.isSome
  | .update _ _ => true
  | .delete => false

def raises (index id : String) (served : ServedItem) : Bool :=
  served.reaches index id && changes served.options served.item.operation

/-- An update of a document that requires a version and succeeded. -/
def updates (index id : String) (required : Int64) (served : ServedItem) : Bool :=
  served.reaches index id &&
    match served.item.operation with
    | .update _ (some version) => version == required
    | _ => false

def deletes (index id : String) (served : ServedItem) : Bool :=
  served.reaches index id &&
    match served.item.operation with
    | .delete => true
    | _ => false

private theorem raises_of_updates {index id : String} {required : Int64} {served : ServedItem}
    (updated : served.updates index id required = true) : served.raises index id = true := by
  obtain ⟨index', options, ⟨location, id', routing, operation⟩, error⟩ := served
  cases operation <;> simp_all [updates, raises, changes]

end ServedItem

namespace BulkRequest

/-- The items of a request with the answers to them. -/
def served (request : BulkRequest) (results : List ItemResult) : List ServedItem :=
  List.zipWith (fun item result => ⟨request.shard.index, request.options, item, result.error⟩)
    request.items results

/-- The items that a request has served, if it does not fail as a whole. -/
def answered (request : BulkRequest) : Except ExecutionError (List ItemResult) → List ServedItem
  | .ok results => request.served results
  | .error _ => []

private theorem index_of_mem_answered {request : BulkRequest} {served : ServedItem}
    {answer : Except ExecutionError (List ItemResult)} (member : served ∈ request.answered answer) :
    served.index = request.shard.index := by
  cases answer with
  | error => cases member
  | ok results =>
    obtain ⟨position, inside, rfl⟩ := List.mem_iff_getElem.mp member
    simp [answered, BulkRequest.served]

end BulkRequest

namespace ClusterCall

def apply (cluster : LocalCluster) : ClusterCall → LocalCluster
  | .bulk node timeout request => (cluster.executeBulk node timeout request).2
  | .fetch request => (cluster.executeFetch request).2
  | .accept node => cluster.accept node
  | .createIndex index => cluster.createIndex index
  | .addIndex index => cluster.addIndex index
  | .failShard shard => { cluster with failingShards := shard :: cluster.failingShards }
  | .failFetchNode node => { cluster with failingFetchNodes := node :: cluster.failingFetchNodes }
  | .addFetchDocument id fields =>
    { cluster with fetchDocuments := cluster.fetchDocuments.insert id fields }

/-- The items that a call has served. A request that fails as a whole, or that is answered too late,
has none. -/
def served (cluster : LocalCluster) : ClusterCall → List ServedItem
  | .bulk node timeout request =>
    ((cluster.executeBulk node timeout request).1.map request.answered).getD []
  | _ => []

/-- The items that are served over several calls, in the order in which they are applied. -/
def servedOver (cluster : LocalCluster) (calls : List ClusterCall) : List ServedItem :=
  observed apply served cluster calls

theorem servedOver_cons (cluster : LocalCluster) (call : ClusterCall) (rest : List ClusterCall) :
    servedOver cluster (call :: rest) = call.served cluster ++ servedOver (apply cluster call) rest :=
  rfl

private theorem servedOver_append (cluster : LocalCluster) (earlier later : List ClusterCall) :
    servedOver cluster (earlier ++ later) =
      servedOver cluster earlier ++ servedOver (earlier.foldl apply cluster) later := by
  induction earlier generalizing cluster with
  | nil => rfl
  | cons call rest ih =>
    rw [List.cons_append, servedOver_cons, ih, servedOver_cons, List.append_assoc, List.foldl_cons]

end ClusterCall

/-! ### Versions between two times -/

/-- The version of a document has risen by one for each change that was served. Every required version
is behind the document once an update has met it. -/
structure VersionsRise (index id : String) (start last : Int) (served : List ServedItem) : Prop where
  counts : last = start + served.countP (·.raises index id)
  once : ∀ required : Int64, served.countP (·.updates index id required) ≤
    if start ≤ required.toInt ∧ required.toInt < last then 1 else 0

namespace VersionsRise

variable {index id : String} {start middle last : Int} {served earlier later : List ServedItem}

private theorem of_unraised (unraised : ∀ item ∈ served, item.raises index id = false) :
    VersionsRise index id start start served where
  counts := by
    have none_raises : served.countP (·.raises index id) = 0 := by
      simpa [List.countP_eq_zero] using unraised
    simp [none_raises]
  once required := by
    have none_updates : served.countP (·.updates index id required) = 0 := by
      rw [List.countP_eq_zero]
      intro item member updated
      have raised := ServedItem.raises_of_updates updated
      simp [unraised item member] at raised
    simp [none_updates]

theorem of_unreached (unreached : ∀ item ∈ served, item.reaches index id = false) :
    VersionsRise index id start start served := by
  refine of_unraised fun item member => ?_
  simp [ServedItem.raises, unreached item member]

theorem refl : VersionsRise index id start start [] := of_unreached (by simp)

theorem le (rise : VersionsRise index id start last served) : start ≤ last := by
  have := rise.counts
  omega

theorem trans (first : VersionsRise index id start middle earlier)
    (second : VersionsRise index id middle last later) :
    VersionsRise index id start last (earlier ++ later) where
  counts := by
    have := first.counts
    have := second.counts
    rw [List.countP_append]
    omega
  once required := by
    have before := first.once required
    have after := second.once required
    have := first.le
    have := second.le
    rw [List.countP_append]
    -- A version that an earlier update has met is below all versions that follow.
    split at before <;> split at after <;> split <;> omega

private theorem le_one (rise : VersionsRise index id start last served) (required : Int64) :
    served.countP (·.updates index id required) ≤ 1 := by
  have := rise.once required
  split at this <;> omega

/-- An item that changes a document raises its version by one. If it requires a version, the document
had it. -/
theorem of_change {item : ServedItem} (raised : item.raises index id = true)
    (required : ∀ version, item.updates index id version = true → start = version.toInt) :
    VersionsRise index id start (start + 1) [item] where
  counts := by simp [raised]
  once version := by
    cases met : item.updates index id version with
    | false => simp [met]
    | true =>
      have := required version met
      rw [if_pos (by omega)]
      simp [met]

end VersionsRise

/-! ### One item, one request, one call -/

namespace Documents

variable {index id : String} {options : BulkOptions} {document : StoredDocument}

private theorem version_apply {documents changed : Documents} {operation : BulkOperation}
    (found : documents.get? id = some document)
    (done : documents.apply options id operation = .ok changed) :
    operation = .delete ∨ ∃ after, changed.get? id = some after ∧
      after.version = document.version + (if ServedItem.changes options operation then 1 else 0) ∧
      ∀ assignments required, operation = .update assignments (some required) →
        document.version = required.toInt := by
  cases operation with
  | delete => exact .inl rfl
  | index source =>
    right
    cases source <;> simp only [apply, found, reduceCtorEq] at done
    split at done <;> cases done
    next overwrites =>
      exact ⟨_, Dictionary.get?_insert_self .., by simp [ServedItem.changes, overwrites,
        StoredDocument.replaced], by simp⟩
  | insert columns values onDuplicate =>
    right
    cases onDuplicate with
    | some assignments =>
      simp only [apply, found, Except.ok.injEq] at done
      subst done
      exact ⟨_, Dictionary.get?_insert_self .., by simp [ServedItem.changes,
        StoredDocument.assigned], by simp⟩
    | none =>
      simp only [apply, found] at done
      split at done <;> cases done
      exact ⟨document, found, by simp [ServedItem.changes], by simp⟩
  | update assignments required =>
    right
    cases required with
    | none =>
      simp only [apply, found, Except.ok.injEq] at done
      subst done
      exact ⟨_, Dictionary.get?_insert_self .., by simp [ServedItem.changes,
        StoredDocument.assigned], by simp⟩
    | some required =>
      simp only [apply, found] at done
      split at done <;> cases done
      next same =>
        refine ⟨_, Dictionary.get?_insert_self .., by simp [ServedItem.changes,
          StoredDocument.assigned], ?_⟩
        intro assignments' required' equal
        cases equal
        exact same

/-- An item that does not delete a document moves its version as it should. -/
theorem applyItem_versionsRise {documents : Documents} (item : BulkItem)
    (found : documents.get? id = some document)
    (kept : (ServedItem.mk index options item (documents.applyItem options item).2.error).deletes
      index id = false) :
    ∃ after, (documents.applyItem options item).1.get? id = some after ∧
      VersionsRise index id document.version after.version
        [⟨index, options, item, (documents.applyItem options item).2.error⟩] := by
  by_cases other : id = item.id
  · subst other
    cases done : documents.apply options item.id item.operation with
    | error fault =>
      have applied : documents.applyItem options item =
          (documents, ⟨item.location, some fault.message⟩) := by
        rw [applyItem, done]
      rw [applied]
      exact ⟨document, found, .of_unreached (by simp [ServedItem.reaches])⟩
    | ok changed =>
      have applied : documents.applyItem options item = (changed, ⟨item.location, none⟩) := by
        rw [applyItem, done]
      rw [applied] at kept ⊢
      obtain gone | ⟨after, there, version, required⟩ := version_apply found done
      · simp [ServedItem.deletes, ServedItem.reaches, gone] at kept
      refine ⟨after, there, ?_⟩
      cases changing : ServedItem.changes options item.operation with
      | false =>
        have same : after.version = document.version := by simpa [changing] using version
        rw [same]
        exact .of_unraised (by simp [ServedItem.raises, changing])
      | true =>
        rw [version, if_pos changing]
        refine .of_change (by simp [ServedItem.raises, ServedItem.reaches, changing]) ?_
        intro wanted met
        cases operation : item.operation <;> simp [ServedItem.updates, operation] at met
        next assignments given =>
          cases given <;> simp at met
          next given =>
            rw [required assignments given operation, met.2]
  · refine ⟨document, (get?_applyItem_of_ne documents item other).trans found, .of_unreached ?_⟩
    simp [ServedItem.reaches, Ne.symm other]

private theorem applyAll_versionsRise {documents : Documents} (request : BulkRequest)
    (items : List BulkItem) (found : documents.get? id = some document)
    (kept : ∀ served ∈ ({ request with items := items } : BulkRequest).served
      (applyAll request.options items documents).2, served.deletes request.shard.index id = false) :
    ∃ after, (applyAll request.options items documents).1.get? id = some after ∧
      VersionsRise request.shard.index id document.version after.version
        (({ request with items := items } : BulkRequest).served
          (applyAll request.options items documents).2) := by
  induction items generalizing documents document with
  | nil => exact ⟨document, found, .refl⟩
  | cons item rest ih =>
    obtain ⟨middle, there, first⟩ := applyItem_versionsRise item found (kept _ (.head _))
    obtain ⟨after, last, later⟩ := ih there fun served member => kept served (.tail _ member)
    exact ⟨after, last, first.trans later⟩

end Documents

namespace LocalCluster

variable {cluster : LocalCluster} {index id : String} {document : StoredDocument}

/-- Where the documents are the same, and no item reaches the document, its version is the same. -/
theorem versionsRise_of_same {changed : LocalCluster} {served : List ServedItem}
    (found : cluster.document? index id = some document)
    (same : changed.document? index id = cluster.document? index id)
    (unreached : ∀ item ∈ served, item.reaches index id = false) :
    ∃ after, changed.document? index id = some after ∧
      VersionsRise index id document.version after.version served :=
  ⟨document, same.trans found, .of_unreached unreached⟩

theorem document?_congr {changed : LocalCluster} (same : changed.indices = cluster.indices) :
    changed.document? index id = cluster.document? index id := by
  rw [LocalCluster.document?, LocalCluster.documents, same]
  rfl

private theorem document?_of_insert {changed : LocalCluster} {other : String} {documents : Documents}
    (inserted : changed.indices = cluster.indices.insert other documents) :
    changed.document? index id =
      if index = other then documents.get? id else cluster.document? index id := by
  unfold LocalCluster.document? LocalCluster.documents
  rw [inserted, Dictionary.get?_insert]
  split <;> rfl

private theorem applyBulk_versionsRise (node : NodeName) (request : BulkRequest)
    (found : cluster.document? index id = some document)
    (kept : ∀ served ∈ request.answered (cluster.applyBulk node request).1,
      served.deletes index id = false) :
    ∃ after, (cluster.applyBulk node request).2.document? index id = some after ∧
      VersionsRise index id document.version after.version
        (request.answered (cluster.applyBulk node request).1) := by
  cases fails : cluster.failingShards.contains request.shard with
  | true =>
    obtain ⟨answer, same⟩ := @LocalCluster.applyBulk_of_failing cluster node request fails
    rw [answer]
    exact versionsRise_of_same found (document?_congr same) (by simp [BulkRequest.answered])
  | false =>
    cases standing : cluster.indices.get? request.shard.index with
    | none =>
      obtain ⟨answer, same⟩ :=
        @LocalCluster.applyBulk_of_missing cluster node request fails standing
      rw [answer]
      refine versionsRise_of_same found (document?_congr same) fun served member => ?_
      obtain ⟨item, -, rfl⟩ : ∃ item ∈ request.items, _ = served := by
        simpa [BulkRequest.answered, BulkRequest.served, List.zipWith_map_right] using member
      simp [ServedItem.reaches]
    | some documents =>
      obtain ⟨answer, changed⟩ :=
        @LocalCluster.applyBulk_of_found cluster node request fails documents standing
      rw [answer] at kept ⊢
      by_cases here : index = request.shard.index
      · subst here
        have there : documents.get? id = some document := by
          simpa [LocalCluster.document?, LocalCluster.documents, standing] using found
        obtain ⟨after, last, rise⟩ := Documents.applyAll_versionsRise request request.items there kept
        refine ⟨after, ?_, rise⟩
        rw [document?_of_insert changed, if_pos rfl, last]
      · have same : (cluster.applyBulk node request).2.document? index id =
            cluster.document? index id := by
          rw [document?_of_insert changed, if_neg here]
        refine versionsRise_of_same found same fun served member => ?_
        have elsewhere := BulkRequest.index_of_mem_answered member
        simp [ServedItem.reaches, elsewhere, Ne.symm here]

private theorem executeBulk_versionsRise (node : NodeName) (timeout : Nat) (request : BulkRequest)
    (found : cluster.document? index id = some document)
    (kept : ∀ served ∈ ((cluster.executeBulk node timeout request).1.map request.answered).getD [],
      served.deletes index id = false) :
    ∃ after, (cluster.executeBulk node timeout request).2.document? index id = some after ∧
      VersionsRise index id document.version after.version
        (((cluster.executeBulk node timeout request).1.map request.answered).getD []) := by
  have served : (cluster.serve node).document? index id = some document :=
    (document?_congr (cluster.serve_alike node).2).trans found
  unfold executeBulk at kept ⊢
  dsimp only at kept ⊢
  split at kept
  next late =>
    rw [if_pos late]
    exact versionsRise_of_same found (served.trans found.symm) (by simp)
  next inTime =>
    rw [if_neg inTime]
    exact applyBulk_versionsRise node request served kept

private theorem ascending_applyBulk (node : NodeName) (request : BulkRequest)
    (ascending : cluster.indices.Ascending) : (cluster.applyBulk node request).2.indices.Ascending := by
  cases fails : cluster.failingShards.contains request.shard with
  | true => exact (@applyBulk_of_failing cluster node request fails).2 ▸ ascending
  | false =>
    cases standing : cluster.indices.get? request.shard.index with
    | none => exact (@applyBulk_of_missing cluster node request fails standing).2 ▸ ascending
    | some documents =>
      rw [(@applyBulk_of_found cluster node request fails documents standing).2]
      exact ascending.insert _ _

private theorem ascending_executeBulk (node : NodeName) (timeout : Nat) (request : BulkRequest)
    (ascending : cluster.indices.Ascending) :
    (cluster.executeBulk node timeout request).2.indices.Ascending := by
  have served : (cluster.serve node).indices.Ascending := (cluster.serve_alike node).2 ▸ ascending
  unfold executeBulk
  dsimp only
  split
  · exact served
  · exact ascending_applyBulk node request served

end LocalCluster

namespace ClusterCall

variable {cluster : LocalCluster} {index id : String} {document : StoredDocument}

/-- An index that is there keeps its documents when it is added again. -/
theorem document?_addIndex (ascending : cluster.indices.Ascending) (name : String) :
    (cluster.addIndex name).document? index id = cluster.document? index id := by
  unfold LocalCluster.document? LocalCluster.documents LocalCluster.addIndex
  by_cases same : index = name
  · rw [same, Dictionary.get?_alter_self ascending]
    rfl
  · rw [Dictionary.get?_alter_of_ne _ _ same]

private theorem indices_executeFetch (cluster : LocalCluster) (request : FetchRequest) :
    (cluster.executeFetch request).2.indices = cluster.indices :=
  (cluster.serve_alike request.node).2

private theorem ascending_apply (call : ClusterCall) (ascending : cluster.indices.Ascending) :
    (apply cluster call).indices.Ascending := by
  cases call with
  | bulk node timeout request =>
    exact LocalCluster.ascending_executeBulk node timeout request ascending
  | fetch request => exact indices_executeFetch cluster request ▸ ascending
  | accept node => exact (cluster.accept_alike node).2 ▸ ascending
  | createIndex name | addIndex name => exact ascending.alter name _
  | failShard | failFetchNode | addFetchDocument => exact ascending

private theorem ascending_run (calls : List ClusterCall) (ascending : cluster.indices.Ascending) :
    (calls.foldl apply cluster).indices.Ascending := by
  induction calls generalizing cluster with
  | nil => exact ascending
  | cons call rest ih => exact ih (ascending_apply call ascending)

/-- Whatever is asked of a cluster moves the version as the items that it serves should. -/
theorem apply_versionsRise (call : ClusterCall) (ascending : cluster.indices.Ascending)
    (found : cluster.document? index id = some document)
    (kept : ∀ served ∈ call.served cluster, served.deletes index id = false) :
    ∃ after, (apply cluster call).document? index id = some after ∧
      VersionsRise index id document.version after.version (call.served cluster) := by
  have unchanged {changed : LocalCluster}
      (same : changed.document? index id = cluster.document? index id) :
      ∃ after, changed.document? index id = some after ∧
        VersionsRise index id document.version after.version [] :=
    LocalCluster.versionsRise_of_same found same (by simp)
  cases call with
  | bulk node timeout request =>
    exact LocalCluster.executeBulk_versionsRise node timeout request found kept
  | fetch request =>
    exact unchanged (LocalCluster.document?_congr (indices_executeFetch cluster request))
  | accept node => exact unchanged (LocalCluster.document?_congr (cluster.accept_alike node).2)
  | createIndex name | addIndex name => exact unchanged (document?_addIndex ascending name)
  | failShard | failFetchNode | addFetchDocument => exact unchanged rfl

theorem run_versionsRise (calls : List ClusterCall) (ascending : cluster.indices.Ascending)
    (found : cluster.document? index id = some document)
    (kept : ∀ served ∈ servedOver cluster calls, served.deletes index id = false) :
    ∃ after, (calls.foldl apply cluster).document? index id = some after ∧
      VersionsRise index id document.version after.version (servedOver cluster calls) := by
  induction calls generalizing cluster document with
  | nil => exact ⟨document, found, .refl⟩
  | cons call rest ih =>
    rw [servedOver_cons] at kept ⊢
    obtain ⟨middle, there, first⟩ := apply_versionsRise call ascending found
      fun served member => kept served (List.mem_append_left _ member)
    obtain ⟨after, last, later⟩ := ih (ascending_apply call ascending) there
      fun served member => kept served (List.mem_append_right _ member)
    exact ⟨after, last, first.trans later⟩

end ClusterCall

/-! ### No update is lost -/

namespace LocalCluster

variable {cluster : LocalCluster} {index id : String}

/-- A cluster of which something may have been asked since it had no index. -/
def Reachable (cluster : LocalCluster) : Prop :=
  ∃ (start : LocalCluster) (calls : List ClusterCall), start.indices = [] ∧
    calls.foldl ClusterCall.apply start = cluster

theorem Reachable.ascending (reachable : cluster.Reachable) : cluster.indices.Ascending := by
  obtain ⟨start, calls, empty, rfl⟩ := reachable
  exact ClusterCall.ascending_run calls (empty ▸ Dictionary.ascending_nil)

/-- While no deletion of a document succeeds, its version between any two times rises by one for each
successful change that was served in between, and of the updates that require one version of it at
most one succeeds. -/
theorem version_counts_changes {document : StoredDocument} (reachable : cluster.Reachable)
    (calls : List ClusterCall) (present : cluster.document? index id = some document)
    (kept : ∀ served ∈ ClusterCall.servedOver cluster calls, served.deletes index id = false) :
    (∀ earlier later, earlier ++ later <+: calls →
      let middle := earlier.foldl ClusterCall.apply cluster
      let last := later.foldl ClusterCall.apply middle
      ∃ before after, middle.document? index id = some before ∧
        last.document? index id = some after ∧ before.version ≤ after.version ∧
        after.version = before.version +
          (ClusterCall.servedOver middle later).countP (·.raises index id)) ∧
      ∀ required, (ClusterCall.servedOver cluster calls).countP (·.updates index id required) ≤ 1 := by
  constructor
  · rintro earlier later ⟨rest, rfl⟩
    simp only [ClusterCall.servedOver_append, List.mem_append] at kept
    obtain ⟨before, there, -⟩ := ClusterCall.run_versionsRise earlier reachable.ascending present
      fun served member => kept served (.inl (.inl member))
    obtain ⟨after, last, rise⟩ := ClusterCall.run_versionsRise later
      (ClusterCall.ascending_run earlier reachable.ascending) there
      fun served member => kept served (.inl (.inr member))
    exact ⟨before, after, there, last, rise.le, rise.counts⟩
  · intro required
    obtain ⟨after, -, rise⟩ :=
      ClusterCall.run_versionsRise calls reachable.ascending present kept
    exact rise.le_one required

/-- Two stages update a document on the same version, after an insert that duplicates it. -/
theorem version_counts_changes_rivals :
    let write (options : BulkOptions) (operations : List BulkOperation) : ClusterCall :=
      .bulk "node-0" 10 ⟨⟨"t", 0⟩, options, operations.map fun operation => ⟨0, "d", none, operation⟩⟩
    let update : BulkOperation := .update [("a", .long 2)] (some 1)
    let cluster := [.createIndex "t", write {} [.insert ["a"] [.long 1] none]].foldl
      ClusterCall.apply (ofSize 2 3)
    let calls := [write { ignoresDuplicates := true } [.insert [] [] none, update],
      .createIndex "t", write { overwritesDuplicates := true } [update, .index (.object [])]]
    (cluster.Reachable ∧ cluster.document? "t" "d" = some ⟨1, [("a", .long 1)]⟩ ∧
      ∀ served ∈ ClusterCall.servedOver cluster calls, served.deletes "t" "d" = false) ∧
    ((calls.foldl ClusterCall.apply cluster).document? "t" "d").map (·.version) = some 3 ∧
    (ClusterCall.servedOver cluster calls).countP (·.updates "t" "d" 1) ≤ 1 := by
  intro write update cluster calls
  have reachable : cluster.Reachable := ⟨ofSize 2 3, _, rfl, rfl⟩
  have present : cluster.document? "t" "d" = some ⟨1, [("a", .long 1)]⟩ := by rfl
  have kept : ∀ served ∈ ClusterCall.servedOver cluster calls, served.deletes "t" "d" = false := by
    decide +kernel
  have settled := version_counts_changes reachable calls present kept
  refine ⟨⟨reachable, present, kept⟩, ?_, settled.2 1⟩
  obtain ⟨before, after, there, last, -, counts⟩ := settled.1 [] calls List.prefix_rfl
  have first : before = ⟨1, [("a", .long 1)]⟩ := Option.some.inj (there.symm.trans present)
  have changes : (ClusterCall.servedOver cluster calls).countP (·.raises "t" "d") = 2 := by
    decide +kernel
  rw [show calls.foldl ClusterCall.apply cluster = calls.foldl ClusterCall.apply ([].foldl _ cluster)
    from rfl, last, Option.map_some, counts]
  exact congrArg some (by rw [first]; exact congrArg (1 + Int.ofNat ·) changes)

end LocalCluster

end RowPipeline
