import RowPipeline.Export.Files

/-!
What a file holds while lines are added to it: the lines in their order, each with a newline behind it.
Other files stay as they are.
-/

namespace RowPipeline

namespace FileTree

variable {tree origin : FileTree} {path other target : FilePath}

@[simp]
theorem file?_put (tree : FileTree) (path : FilePath) (file : StoredFile) :
    (tree.put path file).file? path = some file := by
  simp [put, file?]

private theorem file?_put_of_ne (tree : FileTree) (file : StoredFile) (different : other ≠ path) :
    (tree.put path file).file? other = tree.file? other := by
  have kept (files : List (FilePath × StoredFile)) :
      (files.filter (·.1 != path)).lookup other = files.lookup other := by
    induction files with
    | nil => rfl
    | cons entry rest ih =>
      obtain ⟨place, held⟩ := entry
      by_cases here : place = path
      · subst here
        simp [ih, List.lookup_cons, beq_false_of_ne different]
      · simp [here, ih, List.lookup_cons]
  simp [put, file?, List.lookup_cons, beq_false_of_ne different, kept]

private theorem files_enterAll (tree : FileTree) (place : FilePath) (names : List String) :
    (tree.enterAll place names).2.files = tree.files := by
  have made (tree : FileTree) (place : FilePath) : (tree.addDirectory place).files = tree.files := by
    unfold addDirectory
    split <;> rfl
  induction names generalizing tree place with
  | nil => rfl
  | cons name rest ih =>
    unfold enterAll
    dsimp only
    split
    · rfl
    · rw [ih]
      split
      · rfl
      · exact made tree _

/-- A file that is made is put where its path leads, once there are directories on the way. -/
theorem put_of_create {path : String} {compression : Option Compression}
    (created : origin.create path compression = (.ok target, tree)) :
    ∃ made : FileTree, made.files = origin.files ∧ tree = made.put target ⟨compression, []⟩ := by
  unfold create at created
  dsimp only at created
  split at created
  · cases created
  · split at created
    · cases created
    next place made entered =>
      have kept := origin.files_enterAll (start path) (steps (path.splitOn "/").dropLast)
      rw [entered] at kept
      split at created
      · cases created
      · cases created
        exact ⟨made, kept, rfl⟩

/-- A file was made and holds the lines that were added to it since. -/
structure Written (origin : FileTree) (path : String) (compression : Option Compression)
    (lines : List String) (target : FilePath) (tree : FileTree) : Prop where
  created : (origin.create path compression).1 = .ok target
  content : tree.file? target = some ⟨compression, (lines.map (· ++ "\n")).reverse⟩
  others : ∀ other, other ≠ target → tree.file? other = origin.file? other

variable {path : String} {compression : Option Compression} {lines : List String}

theorem written_create (created : origin.create path compression = (.ok target, tree)) :
    Written origin path compression [] target tree := by
  obtain ⟨made, files, rfl⟩ := put_of_create created
  refine ⟨congrArg Prod.fst created, file?_put made target _, fun other different => ?_⟩
  rw [file?_put_of_ne made _ different, file?, files, file?]

theorem Written.append {line : String} {after : FileTree}
    (written : Written origin path compression lines target tree)
    (added : tree.append target line = .ok after) :
    Written origin path compression (lines ++ [line]) target after := by
  unfold FileTree.append at added
  rw [written.content] at added
  dsimp only at added
  split at added
  · cases added
  · cases added
    refine ⟨written.created, ?_, fun other different => ?_⟩
    · simp [StoredFile.addLine]
    · rw [file?_put_of_ne _ _ different, written.others other different]

/-- The text of a file is made of its lines. -/
theorem Written.text (written : Written origin path compression lines target tree) :
    ∃ file, tree.file? target = some file ∧ file.compression = compression ∧
      file.text = String.join (lines.map (· ++ "\n")) := by
  refine ⟨_, written.content, rfl, ?_⟩
  rw [StoredFile.text, List.reverse_reverse]

end FileTree

end RowPipeline
