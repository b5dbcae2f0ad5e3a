import RowPipeline.Bulk.ItemFault
import RowPipeline.Bulk.Request
import RowPipeline.Dictionary

/-!
The documents of one index. Every change of a document raises its version by one, and an item that
fails changes nothing.
-/

namespace RowPipeline

structure StoredDocument where
  version : Int
  fields : Fields
  deriving Inhabited, Repr, BEq

abbrev Documents := Dictionary String StoredDocument

namespace StoredDocument

def created (fields : Fields) : StoredDocument := ⟨1, fields⟩

def replaced (document : StoredDocument) (fields : Fields) : StoredDocument :=
  ⟨document.version + 1, fields⟩

def assigned (document : StoredDocument) (assignments : List (String × Value)) : StoredDocument :=
  ⟨document.version + 1, document.fields.extend assignments⟩

end StoredDocument

namespace Documents

def apply (options : BulkOptions) (id : String) (operation : BulkOperation)
    (documents : Documents) : Except ItemFault Documents :=
  match operation, documents.get? id with
  | .index (.object fields), none => .ok (documents.insert id (.created fields))
  | .index (.object fields), some document =>
    if options.overwritesDuplicates then .ok (documents.insert id (document.replaced fields))
    else .error (.documentExists id)
  | .index other, _ => .error (.sourceType other.type)
  | .insert columns values _, none =>
    .ok (documents.insert id (.created (Dictionary.ofList (columns.zip values))))
  | .insert _ _ (some assignments), some document =>
    .ok (documents.insert id (document.assigned assignments))
  | .insert _ _ none, some _ =>
    if options.ignoresDuplicates then .ok documents else .error (.documentExists id)
  | .update _ _, none => .error (.documentMissing id)
  | .update assignments none, some document =>
    .ok (documents.insert id (document.assigned assignments))
  | .update assignments (some required), some document =>
    if document.version = required.toInt then
      .ok (documents.insert id (document.assigned assignments))
    else .error (.versionConflict id document.version required.toInt)
  | .delete, none => .error (.documentMissing id)
  | .delete, some _ => .ok (documents.erase id)

/-- The documents after an item, and the answer to it. -/
def applyItem (options : BulkOptions) (documents : Documents) (item : BulkItem) :
    Documents × ItemResult :=
  match documents.apply options item.id item.operation with
  | .ok changed => (changed, ⟨item.location, none⟩)
  | .error fault => (documents, ⟨item.location, some fault.message⟩)

/-- Applies items in order; every item gets one answer. -/
def applyAll (options : BulkOptions) : List BulkItem → Documents → Documents × List ItemResult
  | [], documents => (documents, [])
  | item :: rest, documents =>
    let (documents, result) := documents.applyItem options item
    let (documents, results) := applyAll options rest documents
    (documents, result :: results)

end Documents

end RowPipeline
