import RowPipeline.Error.Basic
import RowPipeline.Projection.Basic

/-!
Which file an export writes: the place is a directory, and the name in it tells the shard or, if
there is none, the job.
-/

namespace RowPipeline

namespace ExportTarget

def fileScheme : String := "file://"

def occursIn (part : List Char) : List Char → Bool
  | [] => part.isEmpty
  | character :: rest => part.isPrefixOf (character :: rest) || occursIn part rest

def directory (uri : String) : Except ParameterFault String :=
  let characters := uri.toList
  if fileScheme.toList.isPrefixOf characters then
    let path := characters.drop fileScheme.length
    if path.isEmpty then .error .exportPath else .ok (String.ofList path)
  else if occursIn "://".toList characters then .error (.exportScheme uri)
  else if characters.isEmpty then .error .exportPath
  else .ok uri

def fileName (job : String) (shard : Option ShardId) (compression : Option Compression) : String :=
  let base :=
    match shard with
    | some shard => s!"{shard.index}_{shard.id}.json"
    | none => s!"{job}.json"
  if compression.isSome then base ++ ".gz" else base

/-- A name that starts at the top replaces the directory. -/
def join (directory name : String) : String :=
  if name.startsWith "/" then name
  else if directory.endsWith "/" then directory ++ name
  else directory ++ "/" ++ name

def path (uri job : String) (shard : Option ShardId) (compression : Option Compression) :
    Except ParameterFault String :=
  (directory uri).map (join · (fileName job shard compression))

end ExportTarget

end RowPipeline
