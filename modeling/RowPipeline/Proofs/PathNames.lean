import Mathlib.Data.String.Basic
import RowPipeline.Export.Files
import RowPipeline.Proofs.Success

/-!
Where paths lead. The names of a path are what stands between its slashes, and they lead to the same
place in every tree of files in which they lead anywhere.
-/

namespace RowPipeline

open String in
/-- The pieces that are split off from some position on. The last piece is still open there, and what
is left of the text is split as a list of characters. -/
private theorem splitOnAux_slash (before piece rest : List Char) (pieces : List String) :
    (ofList (before ++ piece ++ rest)).splitOnAux "/" ⟨utf8Len before⟩
        ⟨utf8Len before + utf8Len piece⟩ 0 pieces =
      pieces.reverse ++ (rest.splitOnPPrepend (· == '/') piece.reverse).map ofList := by
  unfold splitOnAux
  simp only [List.append_assoc, atEnd_iff, rawEndPos_ofList, utf8Len_append, Pos.Raw.mk_le_mk,
    Nat.add_le_add_iff_left,
    (by omega : utf8Len piece + utf8Len rest ≤ utf8Len piece ↔ utf8Len rest = 0),
    utf8Len_eq_zero, List.reverse_cons]
  split
  · subst rest
    simpa using extract_of_valid before piece []
  · obtain ⟨c, rest, rfl⟩ := rest.exists_cons_of_ne_nil ‹_›
    have here : Pos.Raw.get (ofList (before ++ (piece ++ c :: rest)))
        ⟨utf8Len before + utf8Len piece⟩ = c := by
      simpa [-ofList_append] using get_of_valid (before ++ piece) (c :: rest)
    have next : Pos.Raw.next (ofList (before ++ (piece ++ c :: rest)))
        ⟨utf8Len before + utf8Len piece⟩ = ⟨utf8Len before + utf8Len piece + c.utf8Size⟩ := by
      simpa [-ofList_append] using next_of_valid (before ++ piece) c rest
    have cut : Pos.Raw.extract (ofList (before ++ (piece ++ c :: rest))) ⟨utf8Len before⟩
        ⟨utf8Len before + utf8Len piece⟩ = ofList piece := by
      simpa [-ofList_append] using extract_of_valid before piece (c :: rest)
    have slash : Pos.Raw.get "/" 0 = '/' := by decide
    have ended : Pos.Raw.next "/" 0 = ⟨1⟩ := by decide
    rw [here, slash, ended, next]
    split
    next same =>
      obtain rfl : c = '/' := beq_iff_eq.mp same
      have size : ('/' : Char).utf8Size = 1 := rfl
      have whole : "/".rawEndPos ≤ ⟨1⟩ := by decide
      have open_ : Pos.Raw.unoffsetBy ⟨utf8Len before + utf8Len piece + 1⟩ ⟨1⟩ =
          ⟨utf8Len before + utf8Len piece⟩ := by
        simp [Pos.Raw.unoffsetBy]
      have later := splitOnAux_slash (before ++ piece ++ ['/']) [] rest (ofList piece :: pieces)
      simp only [size, open_, cut, List.splitOnPPrepend_cons_eq_if]
      simpa [-ofList_append, size, whole, Nat.add_assoc] using later
    next different =>
      have back : Pos.Raw.unoffsetBy ⟨utf8Len before + utf8Len piece⟩ 0 =
          ⟨utf8Len before + utf8Len piece⟩ := by
        simp [Pos.Raw.unoffsetBy]
      have later := splitOnAux_slash before (piece ++ [c]) rest pieces
      rw [back, next]
      simpa [-ofList_append, different, Nat.add_assoc, List.splitOnPPrepend_cons_eq_if] using later
termination_by rest.length

theorem splitOn_slash (text : String) :
    text.splitOn "/" = (text.toList.splitOnP (· == '/')).map String.ofList := by
  have whole := splitOnAux_slash [] [] text.toList []
  simpa [String.splitOn] using whole

private theorem splitOn_append_slash (left right : String) :
    (left ++ "/" ++ right).splitOn "/" = left.splitOn "/" ++ right.splitOn "/" := by
  simp [splitOn_slash, List.splitOnP_append_cons]

theorem splitOn_of_not_mem {name : String} (whole : '/' ∉ name.toList) :
    name.splitOn "/" = [name] := by
  rw [splitOn_slash, List.splitOnP_eq_singleton fun c member => by
    rw [beq_eq_false_iff_ne]
    rintro rfl
    exact whole member]
  simp

theorem startsWith_slash_of_not_mem {name : String} (plain : '/' ∉ name.toList) :
    name.startsWith "/" = false := by
  rw [Bool.eq_false_iff, ne_eq, String.startsWith_string_iff]
  exact fun first => plain (first.subset (.head _))

namespace FileTree

/-- Where a name leads from a directory. -/
def goto (place : FilePath) (name : String) : FilePath :=
  if name == ".." then above place else place ++ [name]

/-- The directory that a path names. -/
def place (path : String) : FilePath := (steps (path.splitOn "/")).foldl goto (start path)

/-- The file that a path names: its last name, where the names in front of it lead. -/
def filePlace (path : String) : FilePath :=
  (steps (path.splitOn "/").dropLast).foldl goto (start path) ++ [(path.splitOn "/").getLastD ""]

variable {tree : FileTree} {path : String} {compression : Option Compression}

private theorem start_append (named : path ≠ "") (rest : String) :
    start (path ++ rest) = start path := by
  obtain ⟨first, others, characters⟩ : ∃ first others, path.toList = first :: others :=
    List.exists_cons_of_ne_nil (by simpa using named)
  have same : (path ++ rest).startsWith "/" = path.startsWith "/" := by
    rw [Bool.eq_iff_iff, String.startsWith_string_iff, String.startsWith_string_iff]
    simp [characters, List.cons_prefix_cons]
  rw [start, start, same]

private theorem follow_eq_ok {blocked : Fault} {place next : FilePath} {name : String}
    (followed : tree.follow blocked place name = .ok next) : next = goto place name := by
  unfold follow at followed
  unfold goto
  split at followed
  next up => simpa [up] using (Except.ok.inj followed).symm
  next down =>
    obtain ⟨-, -, followed⟩ := ok_of_bind followed
    dsimp only at followed
    split at followed
    · cases followed
    · simpa [down] using (Except.ok.inj followed).symm

/-- Names lead to the same place in all trees in which they lead anywhere. -/
theorem enterAll_eq_ok {names : List String} {place reached : FilePath}
    (entered : (tree.enterAll place names).1 = .ok reached) : reached = names.foldl goto place := by
  induction names generalizing tree place with
  | nil => exact (Except.ok.inj entered).symm
  | cons name rest ih =>
    unfold enterAll at entered
    dsimp only at entered
    split at entered
    · cases entered
    next next followed =>
      rw [List.foldl_cons, ← follow_eq_ok followed]
      exact ih entered

private theorem target_eq_ok {place made : FilePath} {names : List String}
    (found : tree.target place names = .ok made) : made = place ++ [names.getLastD ""] := by
  obtain ⟨-, -, found⟩ := ok_of_bind found
  obtain ⟨-, -, found⟩ := ok_of_bind found
  dsimp only at found
  split at found
  · cases found
  · exact (Except.ok.inj found).symm

theorem create_eq_ok {made : FilePath} (created : (tree.create path compression).1 = .ok made) :
    made = filePlace path := by
  unfold create at created
  dsimp only at created
  split at created
  · cases created
  · split at created
    · cases created
    next place after entered =>
      have reached := enterAll_eq_ok (congrArg Prod.fst entered)
      split at created
      · cases created
      next found =>
        rw [← Except.ok.inj created, target_eq_ok found, reached, filePlace]

/-- A name behind a directory, with a slash between them, names a file in that directory. -/
theorem filePlace_append_slash {directory name : String} (named : directory ≠ "")
    (plain : '/' ∉ name.toList) :
    filePlace (directory ++ "/" ++ name) = place directory ++ [name] := by
  rw [filePlace, splitOn_append_slash, splitOn_of_not_mem plain, List.dropLast_concat,
    List.getLastD_concat, String.append_assoc, start_append named, place]

/-- A slash at the end of a directory is that slash. -/
theorem filePlace_append {directory name : String} (closed : directory.endsWith "/" = true)
    (plain : '/' ∉ name.toList) : filePlace (directory ++ name) = place directory ++ [name] := by
  obtain ⟨front, rfl⟩ : ∃ front, directory = front ++ "/" := by
    rw [String.endsWith_eq_endsWith_toSlice, String.Slice.endsWith_string_iff] at closed
    obtain ⟨front, characters⟩ := closed
    exact ⟨String.ofList front, String.toList_inj.mp (by simpa using characters.symm)⟩
  have whole : (front ++ "/").splitOn "/" = front.splitOn "/" ++ [""] := by
    simp [splitOn_slash, List.splitOnP_append_cons]
  rw [filePlace, splitOn_append_slash, splitOn_of_not_mem plain, List.dropLast_concat,
    List.getLastD_concat, start_append (by simp), place, whole]
  simp [steps, isStep]

end FileTree

end RowPipeline
