import RowPipeline.Error.Basic

/-!
Why a single item of a batched write failed.
-/

namespace RowPipeline

inductive ItemFault where
  | nullPrimaryKey
  | nullClusteringValue
  | nullDocumentId
  | sourceNotObject
  | sourceType (type : ValueType)
  | sourceSyntax (detail : String)
  | evaluation (fault : EvaluationFault)
  | noShard (index : String)
  | noResponse
  | request (error : ExecutionError)
  | indexMissing (index : String)
  | documentExists (id : String)
  | documentMissing (id : String)
  | versionConflict (id : String) (current required : Int)
  deriving DecidableEq, Repr

def ItemFault.message : ItemFault → String
  | .nullPrimaryKey => "primary key value must not be null"
  | .nullClusteringValue => "clustered by value must not be null"
  | .nullDocumentId => "document id must not be null"
  | .sourceNotObject => "source must be a JSON object"
  | .sourceType type => s!"source must be an object, got {type.name}"
  | .sourceSyntax detail => s!"failed to parse source: {detail}"
  | .evaluation fault => fault.message
  | .noShard index => s!"no shard found for index {index}"
  | .noResponse => "no response for item"
  | .request error => error.message
  | .indexMissing index => s!"index {index} not found"
  | .documentExists id => s!"document with id {id} already exists"
  | .documentMissing id => s!"document with id {id} is missing"
  | .versionConflict id current required =>
    s!"version conflict for {id}: current {current}, required {required}"

end RowPipeline
