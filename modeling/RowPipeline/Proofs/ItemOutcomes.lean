import Mathlib.Data.List.Nodup
import RowPipeline.Cluster.Local
import RowPipeline.Proofs.WriterSteps

/-!
What an item does to the one document that it addresses, and what is recorded of it, whatever other
items its request has.
-/

namespace RowPipeline

/-! ### One item -/

namespace Documents

variable {options : BulkOptions} {id : String} {operation : BulkOperation}

/-- An operation leaves all other documents alone. -/
theorem get?_apply_of_ne {documents changed : Documents} {other : String}
    (done : documents.apply options id operation = .ok changed) (different : other ≠ id) :
    changed.get? other = documents.get? other := by
  unfold apply at done
  split at done <;> (try split at done) <;> cases done <;>
    simp [Dictionary.get?_insert, Dictionary.get?_erase, different]

private theorem apply_congr {documents others : Documents} (same : documents.get? id = others.get? id) :
    (documents.apply options id operation).map (·.get? id) =
      (others.apply options id operation).map (·.get? id) := by
  unfold apply
  rw [same]
  split <;> (try split) <;> simp [Except.map, Dictionary.get?_erase, same]

/-- An index with one document or none. -/
def single (id : String) (document : Option StoredDocument) : Documents :=
  document.toList.map fun document => (id, document)

@[simp]
theorem get?_single (id : String) (document : Option StoredDocument) :
    Dictionary.get? id (single id document) = document := by
  cases document <;> simp [single, Dictionary.get?_cons]

end Documents

/-- What becomes of the document that an item addresses, and the message if the item fails. -/
def BulkItem.outcome (options : BulkOptions) (item : BulkItem) (document : Option StoredDocument) :
    Option StoredDocument × Option String :=
  let (documents, result) := (Documents.single item.id document).applyItem options item
  (documents.get? item.id, result.error)

/-- What becomes of a document does not depend on the number of its item. -/
theorem BulkItem.outcome_renumber (options : BulkOptions) (item : BulkItem) (location : Nat)
    (document : Option StoredDocument) :
    { item with location := location }.outcome options document = item.outcome options document := by
  unfold outcome Documents.applyItem
  dsimp only
  split <;> rfl

namespace Documents

variable {options : BulkOptions}

@[simp]
theorem applyItem_location (documents : Documents) (item : BulkItem) :
    (documents.applyItem options item).2.location = item.location := by
  unfold applyItem
  split <;> rfl

theorem applyItem_outcome (options : BulkOptions) (documents : Documents) (item : BulkItem) :
    ((documents.applyItem options item).1.get? item.id, (documents.applyItem options item).2.error) =
      item.outcome options (documents.get? item.id) := by
  have same := @apply_congr options item.id item.operation documents _
    (get?_single item.id (documents.get? item.id)).symm
  unfold BulkItem.outcome applyItem
  cases done : documents.apply options item.id item.operation <;>
    cases alone : (single item.id (documents.get? item.id)).apply options item.id item.operation <;>
      simp_all [Except.map]

theorem get?_applyItem_of_ne (documents : Documents) (item : BulkItem) {other : String}
    (different : other ≠ item.id) :
    (documents.applyItem options item).1.get? other = documents.get? other := by
  unfold applyItem
  split
  next changed done => exact get?_apply_of_ne done different
  next => rfl

/-- Every item of a request has an answer for its location. -/
theorem applyAll_locations (options : BulkOptions) (items : List BulkItem) (documents : Documents) :
    (applyAll options items documents).2.map (·.location) = items.map (·.location) := by
  induction items generalizing documents with
  | nil => rfl
  | cons item rest ih => simp [applyAll, ih]

end Documents

/-! ### Accounts -/

def PendingItem.account (node : NodeName) (pending : PendingItem) (error : Option String) : Account :=
  ⟨pending.item.location, node, pending.origin, error⟩

namespace BulkOutcome

theorem accounts_of_error (dispatch : Dispatch) (error : ExecutionError) :
    accounts ⟨dispatch, .error error⟩ = dispatch.items.map fun pending =>
      pending.account dispatch.node (some (ItemFault.request error).message) := by
  simp [accounts, BulkWriter.itemErrors, PendingItem.account]

private theorem itemError_of_nodup {results : List ItemResult} {result : ItemResult}
    (distinct : (results.map (·.location)).Nodup) (member : result ∈ results) :
    BulkWriter.itemError results result.location = result.error := by
  unfold BulkWriter.itemError
  cases found : results.reverse.find? (·.location == result.location) with
  | none => simpa using List.find?_eq_none.mp found result (List.mem_reverse.mpr member)
  | some other =>
    have there := List.mem_reverse.mp (List.mem_of_find?_eq_some found)
    have same : other.location = result.location := by simpa using List.find?_some found
    rw [List.inj_on_of_nodup_map distinct there member same]

/-- Where locations are distinct, the account of every item has the answer for it. -/
theorem accounts_of_ok (dispatch : Dispatch) {results : List ItemResult}
    (answered : results.map (·.location) = dispatch.items.map (·.item.location))
    (distinct : (dispatch.items.map (·.item.location)).Nodup) :
    accounts ⟨dispatch, .ok results⟩ = List.zipWith
      (fun pending result => pending.account dispatch.node result.error) dispatch.items results := by
  have lengths : results.length = dispatch.items.length := by simpa using congrArg List.length answered
  refine List.ext_getElem (by simp [accounts, BulkWriter.itemErrors, lengths]) fun position inside _ => ?_
  have here : position < results.length := by
    simpa [accounts, BulkWriter.itemErrors, lengths] using inside
  have location : results[position].location = dispatch.items[position].item.location := by
    have mapped : position < (results.map (·.location)).length := by simpa using here
    simpa using List.getElem_of_eq answered mapped
  have own := itemError_of_nodup (answered ▸ distinct) (List.getElem_mem here)
  simp [accounts, BulkWriter.itemErrors, PendingItem.account, ← location, own]

end BulkOutcome

end RowPipeline
