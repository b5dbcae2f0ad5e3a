import RowPipeline.CommandLine.Run
import RowPipeline.Export.Gzip

/-!
The program: it reads the files that a command names, runs the command, and writes what came out.
-/

namespace RowPipeline

namespace CommandLine

def usage : String :=
  "Usage: rowpipeline run --plan <path> --rows <path> [--config <path>] [--shard <index>:<id>]\n" ++
    "                       [--nodes <count>] [--shards <count>] [--index <name>]...\n" ++
    "       rowpipeline validate --plan <path> [--config <path>] [--shard <index>:<id>]"

def versionText : String := "rowpipeline 0.1.0"

/-- The texts are those that systems give. -/
def systemText : IO.Error → String
  | .noFileOrDirectory _ _ _ => "No such file or directory (os error 2)"
  | .permissionDenied _ _ _ => "Permission denied (os error 13)"
  | .inappropriateType _ _ _ => "Is a directory (os error 21)"
  | error => toString error

def readInput (path : String) : IO (String × Except String String) := do
  try
    match String.fromUTF8? (← IO.FS.readBinFile path) with
    | some text => return (path, .ok text)
    | none => return (path, .error "stream did not contain valid UTF-8")
  catch error => return (path, .error (systemText error))

def readingOf (inputs : List (String × Except String String)) : Reading := fun path =>
  (inputs.lookup path).getD (.error "not read")

def fileBytes (file : StoredFile) : ByteArray :=
  match file.compression with
  | some .gzip => ⟨(Gzip.encode file.text.toUTF8.toList).toArray⟩
  | none => file.text.toUTF8

/-- Makes the directories and writes the files of a report. The first that cannot be made or
written makes the command fail. -/
def writeFiles (report : Report) : IO Report := do
  try
    for path in report.files.directories do IO.FS.createDirAll (FileTree.pathText path)
    for (path, file) in report.files.files.reverse do
      IO.FS.writeBinFile (FileTree.pathText path) (fileBytes file)
    return report
  catch error => return { report with outcome := .error (.execution (.io (systemText error))) }

def freshSeed : IO UInt64 := do
  let bytes ← IO.getRandomBytes 8
  return bytes.toList.foldl (fun seed byte => seed * 256 + byte.toUInt64) 0

def perform (command : Command) : IO UInt32 := do
  let inputs ← (inputPaths command).mapM readInput
  let here : Surroundings := { reading := readingOf inputs, ids := ⟨← freshSeed, 0⟩ }
  let report ← writeFiles (execute here command)
  for line in report.log.errorLines do IO.eprint line
  for line in report.standardLines do IO.print line
  match report.failure with
  | some text => IO.eprintln text
  | none => pure ()
  return UInt32.ofNat report.exitCode

end CommandLine

end RowPipeline

open RowPipeline CommandLine in
def main (arguments : List String) : IO UInt32 :=
  match readArguments arguments with
  | .help => do
    IO.println usage
    return 0
  | .version => do
    IO.println versionText
    return 0
  | .malformed => do
    IO.eprintln usage
    return 2
  | .accepted command => perform command
