import RowPipeline.Dictionary
import RowPipeline.Projection.Basic

/-!
Files in directories: those that are given, and those that exports write. A path is a list of names
from the top; writing to a path makes the directories that lead to it, and those that were made stay
even if the file cannot be.
-/

namespace RowPipeline

structure StoredFile where
  compression : Option Compression
  /-- The pieces of the text, the last one first. -/
  newest : List String
  deriving DecidableEq, Repr

namespace StoredFile

def ofText (text : String) : StoredFile := ⟨none, [text]⟩

def text (file : StoredFile) : String := String.join file.newest.reverse

def addLine (line : String) (file : StoredFile) : StoredFile :=
  { file with newest := (line ++ "\n") :: file.newest }

end StoredFile

/-- Names of directories from the top, and of a file in the last of them. -/
abbrev FilePath := List String

structure FileTree where
  directories : List FilePath := []
  files : List (FilePath × StoredFile) := []
  /-- What the device says against one more line of a file, if anything. -/
  lineFault : FilePath → StoredFile → Option String := fun _ _ => none
  closeFault : FilePath → StoredFile → Option String := fun _ _ => none

namespace FileTree

/-- Why there is no file at a path, why none can be made, or why it cannot be written. -/
inductive Fault where
  | zeroCharacter
  | nameTooLong
  | missing
  /-- A file is where the last directory would have to be. -/
  | fileExists
  /-- A file is where a directory further up would have to be. -/
  | notDirectory
  | isDirectory
  /-- The device refuses, in its own words. -/
  | device (detail : String)
  deriving DecidableEq, Repr

def Fault.message : Fault → String
  | .zeroCharacter => "file name contained an unexpected NUL byte"
  | .nameTooLong => "File name too long (os error 36)"
  | .missing => "No such file or directory (os error 2)"
  | .fileExists => "File exists (os error 17)"
  | .notDirectory => "Not a directory (os error 20)"
  | .isDirectory => "Is a directory (os error 21)"
  | .device detail => detail

def pathText (path : FilePath) : String := String.intercalate "/" path

/-- Names may have this many bytes. -/
def nameLimit : Nat := 255

/-- Whole paths have to have fewer bytes than this. -/
def pathLimit : Nat := 4096

def checkPath (path : String) : Except Fault Unit :=
  if pathLimit ≤ path.utf8ByteSize then .error .nameTooLong else .ok ()

def checkName (name : String) : Except Fault Unit :=
  if nameLimit < name.utf8ByteSize then .error .nameTooLong else .ok ()

def checkCharacters (name : String) : Except Fault Unit :=
  if name.toList.contains '\x00' then .error .zeroCharacter else .ok ()

def file? (tree : FileTree) (path : FilePath) : Option StoredFile := tree.files.lookup path

/-- Puts a file in the place of the one at its path, if there is one. -/
def put (tree : FileTree) (path : FilePath) (file : StoredFile) : FileTree :=
  { tree with files := (path, file) :: tree.files.filter (·.1 != path) }

def start (path : String) : FilePath := if path.startsWith "/" then [""] else []

def above (place : FilePath) : FilePath :=
  match place.getLast? with
  | none | some ".." => place ++ [".."]
  | some "" => place
  | some _ => place.dropLast

/-- Goes from directory to directory as names say, all of which have to be there. -/
def descend (tree : FileTree) (place : FilePath) : List String → Except Fault FilePath
  | [] => .ok place
  | name :: rest => do
    if name == "" || name == "." then descend tree place rest
    else if name == ".." then descend tree (above place) rest
    else
      checkName name
      let path := place ++ [name]
      if (tree.file? path).isSome then throw .notDirectory
      else if tree.directories.contains path then descend tree path rest
      else throw .missing

def read (tree : FileTree) (path : String) : Except Fault String := do
  checkCharacters path
  checkPath path
  let names := path.splitOn "/"
  let place ← tree.descend (start path) names.dropLast
  let name := names.getLastD ""
  if ["", ".", ".."].contains name then throw .isDirectory
  checkName name
  let target := place ++ [name]
  match tree.file? target with
  | some file => return file.text
  | none => if tree.directories.contains target then throw .isDirectory else throw .missing

def addDirectory (tree : FileTree) (path : FilePath) : FileTree :=
  if tree.directories.contains path then tree
  else { tree with directories := tree.directories ++ [path] }

/-- Where one name leads, which is up for two points. The fault `blocked` tells that a file is
there. -/
def follow (tree : FileTree) (blocked : Fault) (place : FilePath) (name : String) :
    Except Fault FilePath := do
  if name == ".." then return above place
  checkName name
  let path := place ++ [name]
  if (tree.file? path).isSome then throw blocked else return path

/-- Goes along names and makes the directories that are missing, up to the first fault. -/
def enterAll (tree : FileTree) (place : FilePath) :
    List String → Except Fault FilePath × FileTree
  | [] => (.ok place, tree)
  | name :: rest =>
    let blocked : Fault := if rest.isEmpty then .fileExists else .notDirectory
    match tree.follow blocked place name with
    | .error fault => (.error fault, tree)
    | .ok next => enterAll (if name == ".." then tree else tree.addDirectory next) next rest

def isStep (name : String) : Bool := name != "" && name != "."

/-- Names of directories that lead anywhere. -/
def steps (names : List String) : List String := names.filter isStep

/-- The names without those at the end that lead nowhere. -/
def trimEnd (names : List String) : List String := (names.reverse.dropWhile (!isStep ·)).reverse

def checkNames (names : List String) : Except Fault Unit := do
  names.forM checkCharacters
  checkPath (pathText names)

/-- The place of a file in a directory, unless a directory is there. -/
def target (tree : FileTree) (place : FilePath) (names : List String) : Except Fault FilePath := do
  checkNames names
  let name := names.getLastD ""
  checkName name
  let target := place ++ [name]
  if tree.directories.contains target then throw .isDirectory else return target

/-- Makes an empty file, in the place of a file that was there; answers its path. -/
def create (tree : FileTree) (path : String) (compression : Option Compression) :
    Except Fault FilePath × FileTree :=
  let names := path.splitOn "/"
  match checkNames (trimEnd names.dropLast) with
  | .error fault => (.error fault, tree)
  | .ok () =>
    match tree.enterAll (start path) (steps names.dropLast) with
    | (.error fault, tree) => (.error fault, tree)
    | (.ok place, tree) =>
      match tree.target place names with
      | .error fault => (.error fault, tree)
      | .ok target => (.ok target, tree.put target ⟨compression, []⟩)

def append (tree : FileTree) (path : FilePath) (line : String) : Except Fault FileTree :=
  match tree.file? path with
  | none => .ok tree
  | some file =>
    match tree.lineFault path file with
    | some detail => .error (.device detail)
    | none => .ok (tree.put path (file.addLine line))

/-- Ends writing to a file, when everything that was held back has to reach the device. -/
def close (tree : FileTree) (path : FilePath) : Except Fault Unit :=
  match (tree.file? path).bind (tree.closeFault path) with
  | some detail => .error (.device detail)
  | none => .ok ()

end FileTree

end RowPipeline
