import RowPipeline.Export.Target
import RowPipeline.Proofs.NumberTexts
import RowPipeline.Proofs.PartitionNames
import RowPipeline.Proofs.PathNames

/-!
Which files the exports of shards write. The name of a file tells its shard, so exports of different
shards share no file, and every file is directly in the directory that the URI names. Both hold for
indices without a slash in their names: nothing checks for slashes, and one leads out of the directory.
-/

namespace RowPipeline

/-- A path that names a file directly in a directory: behind the directory is one name, and wherever
a file can be made at the path, it gets this name in that directory. -/
structure FileTree.NamesFileIn (directory name path : String) : Prop where
  plain : '/' ∉ name.toList
  leads : name ∉ ["", ".", ".."]
  text : path = directory ++ "/" ++ name ∨ directory.endsWith "/" = true ∧ path = directory ++ name
  made : ∀ (tree : FileTree) (compression : Option Compression) (file : FilePath),
    (tree.create path compression).1 = .ok file → file = FileTree.place directory ++ [name]

namespace ExportTarget

variable {uri folder name job : String} {compression : Option Compression}
  {shard other : ShardId}

/-- What comes behind the number of a shard. -/
def suffix (compression : Option Compression) : String :=
  if compression.isSome then ".json.gz" else ".json"

theorem toList_fileName (job : String) (shard : ShardId) (compression : Option Compression) :
    (fileName job (some shard) compression).toList =
      shard.index.toList ++ '_' :: (Nat.toDigits 10 shard.id ++ (suffix compression).toList) := by
  unfold fileName suffix
  cases compression <;> simp [String.toList_append, toString, Nat.repr]

private theorem not_mem_ending (number : Nat) (compression : Option Compression) {character : Char}
    (noDigit : character.isDigit = false) (absent : character ∉ ".json.gz".toList) :
    character ∉ Nat.toDigits 10 number ++ (suffix compression).toList := by
  rw [List.mem_append, not_or]
  constructor
  · intro member
    rw [(Json.isDigits_toDigits number).all character member] at noDigit
    cases noDigit
  · intro member
    unfold suffix at member
    split at member
    · exact absent member
    · exact absent (List.mem_append_left ".gz".toList member)

/-- An index is told from the number behind it, since nothing behind it has a low line. -/
theorem splitLast?_fileName (job : String) (shard : ShardId) (compression : Option Compression) :
    ShardId.splitLast? '_' (fileName job (some shard) compression).toList =
      some (shard.index.toList, Nat.toDigits 10 shard.id ++ (suffix compression).toList) := by
  rw [toList_fileName]
  exact ShardId.splitLast?_append '_' _ (not_mem_ending _ _ (by decide) (by decide))

private theorem fileName_injective (same : fileName job (some shard) compression =
    fileName job (some other) compression) : shard = other := by
  have split := splitLast?_fileName job shard compression
  rw [same, splitLast?_fileName] at split
  obtain ⟨indices, endings⟩ := Prod.mk.inj (Option.some.inj split)
  have numbers := congrArg Json.digitsValue (List.append_cancel_right endings)
  rw [Json.digitsValue_toDigits, Json.digitsValue_toDigits] at numbers
  obtain ⟨index, number⟩ := shard
  obtain rfl : other.index = index := String.toList_inj.mp indices
  obtain rfl : other.id = number := numbers
  rfl

private theorem slash_not_mem_fileName (job : String) (compression : Option Compression)
    (plain : '/' ∉ shard.index.toList) :
    '/' ∉ (fileName job (some shard) compression).toList := by
  rw [toList_fileName, List.mem_append, List.mem_cons]
  rintro (inIndex | low | behind)
  · exact plain inIndex
  · exact absurd low (by decide)
  · exact not_mem_ending _ _ (by decide) (by decide) behind

private theorem fileName_leads (job : String) (shard : ShardId) (compression : Option Compression) :
    fileName job (some shard) compression ∉ ["", ".", ".."] := by
  have low : '_' ∈ (fileName job (some shard) compression).toList := by
    rw [toList_fileName]
    exact List.mem_append_right _ (.head _)
  have without : ∀ name ∈ ["", ".", ".."], '_' ∉ name.toList := by decide
  exact fun member => without _ member low

private theorem directory_ne_empty (accepted : directory uri = .ok folder) : folder ≠ "" := by
  rintro rfl
  unfold directory at accepted
  dsimp only at accepted
  split at accepted
  · split at accepted
    · cases accepted
    next present =>
      have empty := congrArg String.toList (Except.ok.inj accepted)
      rw [String.toList_ofList] at empty
      exact present (by rw [empty]; rfl)
  · split at accepted
    · cases accepted
    · split at accepted
      · cases accepted
      next present => exact present (by rw [Except.ok.inj accepted]; rfl)

/-- A name without a slash is put behind the directory. -/
theorem join_of_plain (plain : '/' ∉ name.toList) : join folder name =
    if folder.endsWith "/" then folder ++ name else folder ++ "/" ++ name := by
  rw [join, startsWith_slash_of_not_mem plain, if_neg Bool.false_ne_true]

theorem filePlace_join (named : folder ≠ "") (plain : '/' ∉ name.toList) :
    FileTree.filePlace (join folder name) = FileTree.place folder ++ [name] := by
  rw [join_of_plain plain]
  split
  next closed => exact FileTree.filePlace_append closed plain
  next => exact FileTree.filePlace_append_slash named plain

private theorem namesFileIn_join (named : folder ≠ "") (plain : '/' ∉ name.toList)
    (leads : name ∉ ["", ".", ".."]) : FileTree.NamesFileIn folder name (join folder name) where
  plain := plain
  leads := leads
  text := by
    rw [join_of_plain plain]
    split
    next closed => exact .inr ⟨closed, rfl⟩
    next => exact .inl rfl
  made _ _ _ created := (FileTree.create_eq_ok created).trans (filePlace_join named plain)

/-- Exports of different shards write different files, each directly in the directory that the URI
names. -/
theorem shards_apart (accepted : directory uri = .ok folder) (job : String)
    (compression : Option Compression) (plain : '/' ∉ shard.index.toList)
    (plain' : '/' ∉ other.index.toList) (different : shard ≠ other) :
    ∃ target target', path uri job (some shard) compression = .ok target ∧
      path uri job (some other) compression = .ok target' ∧ target ≠ target' ∧
      FileTree.NamesFileIn folder (fileName job (some shard) compression) target ∧
      FileTree.NamesFileIn folder (fileName job (some other) compression) target' ∧
      ∀ (tree tree' : FileTree) (file file' : FilePath),
        (tree.create target compression).1 = .ok file →
        (tree'.create target' compression).1 = .ok file' → file ≠ file' := by
  have named := directory_ne_empty accepted
  have slash := slash_not_mem_fileName job compression plain
  have slash' := slash_not_mem_fileName job compression plain'
  have apart : FileTree.filePlace (join folder (fileName job (some shard) compression)) ≠
      FileTree.filePlace (join folder (fileName job (some other) compression)) := by
    rw [filePlace_join named slash, filePlace_join named slash']
    intro same
    exact different (fileName_injective (List.singleton_inj.mp (List.append_cancel_left same)))
  refine ⟨_, _, by rw [path, accepted]; rfl, by rw [path, accepted]; rfl,
    fun same => apart (congrArg _ same),
    namesFileIn_join named slash (fileName_leads _ _ _),
    namesFileIn_join named slash' (fileName_leads _ _ _), ?_⟩
  intro tree tree' file file' created created' same
  rw [FileTree.create_eq_ok created, FileTree.create_eq_ok created'] at same
  exact apart same

/-- A low line and a digit at the end of an index look like the number of another shard, and the
directory is named with a slash at its end. -/
theorem shards_apart_numbered :
    path "file:///tmp/dir/" "j" (some ⟨"a_1", 2⟩) (some .gzip) = .ok "/tmp/dir/a_1_2.json.gz" ∧
    path "file:///tmp/dir/" "j" (some ⟨"a", 12⟩) (some .gzip) = .ok "/tmp/dir/a_12.json.gz" ∧
    FileTree.NamesFileIn "/tmp/dir/" "a_1_2.json.gz" "/tmp/dir/a_1_2.json.gz" ∧
    FileTree.NamesFileIn "/tmp/dir/" "a_12.json.gz" "/tmp/dir/a_12.json.gz" := by
  obtain ⟨target, target', one, two, -, inside, inside', -⟩ :=
    @shards_apart "file:///tmp/dir/" "/tmp/dir/" ⟨"a_1", 2⟩ ⟨"a", 12⟩ (by decide +kernel) "j"
      (some .gzip) (by decide +kernel) (by decide +kernel) (by decide)
  have first : path "file:///tmp/dir/" "j" (some ⟨"a_1", 2⟩) (some .gzip) =
      .ok "/tmp/dir/a_1_2.json.gz" := by decide +kernel
  have second : path "file:///tmp/dir/" "j" (some ⟨"a", 12⟩) (some .gzip) =
      .ok "/tmp/dir/a_12.json.gz" := by decide +kernel
  obtain rfl := Except.ok.inj (one.symm.trans first)
  obtain rfl := Except.ok.inj (two.symm.trans second)
  exact ⟨first, second, inside, inside'⟩

/-- With slashes in the names of indices two shards share a file, and another shard's file is not in
the directory. -/
theorem not_shards_apart_slash :
    ShardId.parse? "/tmp/out/t:3" = some ⟨"/tmp/out/t", 3⟩ ∧
    ShardId.parse? "t:3" = some ⟨"t", 3⟩ ∧ ShardId.parse? "../t:3" = some ⟨"../t", 3⟩ ∧
    directory "/tmp/out" = .ok "/tmp/out" ∧
    path "/tmp/out" "j" (some ⟨"/tmp/out/t", 3⟩) none = .ok "/tmp/out/t_3.json" ∧
    path "/tmp/out" "j" (some ⟨"t", 3⟩) none = .ok "/tmp/out/t_3.json" ∧
    path "/tmp/out" "j" (some ⟨"../t", 3⟩) none = .ok "/tmp/out/../t_3.json" ∧
    (FileTree.create {} "/tmp/out/../t_3.json" none).1 = .ok ["", "tmp", "t_3.json"] ∧
    ∀ name, ¬FileTree.NamesFileIn "/tmp/out" name "/tmp/out/../t_3.json" := by
  have made : (FileTree.create {} "/tmp/out/../t_3.json" none).1 = .ok ["", "tmp", "t_3.json"] := by
    have names : "/tmp/out/../t_3.json".splitOn "/" = ["", "tmp", "out", "..", "t_3.json"] := by
      rw [splitOn_slash]
      decide +kernel
    have top : FileTree.start "/tmp/out/../t_3.json" = [""] := by decide +kernel
    rw [FileTree.create, names, top]
    decide +kernel
  refine ⟨by decide +kernel, by decide +kernel, by decide +kernel, by decide +kernel,
    by decide +kernel, by decide +kernel, by decide +kernel, made, fun name inside => ?_⟩
  have same := inside.made _ _ _ made
  have place : FileTree.place "/tmp/out" = ["", "tmp", "out"] := by
    rw [FileTree.place, splitOn_slash]
    decide +kernel
  simp [place] at same

end ExportTarget

end RowPipeline
