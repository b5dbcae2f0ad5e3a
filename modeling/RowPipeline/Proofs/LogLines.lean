import Mathlib.Data.String.Basic
import RowPipeline.Log.Entry
import RowPipeline.Proofs.JsonGrammar

/-!
Lines of the log as JSON. A line is one object of strings, in one piece up to the newline at its end,
and the order in which fields come in does not show.
-/

namespace RowPipeline

namespace LogEntry

/-! ### Strings -/

private theorem unitText_hexDigits {value : Nat} (bound : value < 0x10000) :
    Json.UnitText value (hexDigits value) := by
  have parts := Json.UnitText.digits (Json.hexDigit_mem (show value / 4096 < 16 by omega))
    (Json.hexDigit_mem (show value / 256 % 16 < 16 by omega))
    (Json.hexDigit_mem (show value / 16 % 16 < 16 by omega))
    (Json.hexDigit_mem (show value % 16 < 16 by omega))
  have whole : 0x1000 * (value / 4096) + 0x100 * (value / 256 % 16) + 0x10 * (value / 16 % 16) +
      value % 16 = value := by omega
  rwa [whole] at parts

theorem characterText_escape (character : Char) :
    Json.CharacterText character (escape character) := by
  unfold escape
  split
  case h_6 quote slash _ _ _ =>
    split
    next control =>
      have low : character.toNat < 0xa0 := by
        simp only [isControl, Bool.or_eq_true, Bool.and_eq_true, decide_eq_true_eq] at control
        omega
      have derived := Json.CharacterText.unit
        (unitText_hexDigits (show character.toNat < 0x10000 by omega)) (.inl (by omega))
      rwa [Char.ofNat_toNat] at derived
    next shown =>
      simp only [isControl, Bool.or_eq_true, Bool.and_eq_true, decide_eq_true_eq] at shown
      exact .plain (by omega) quote slash
  all_goals exact .letter (by decide)

theorem stringText_quoted (content : String) : Json.StringText content (quoted content) :=
  .quoted _ (.flatMap characterText_escape content.toList)

private theorem newline_not_mem_quoted (content : String) : '\n' ∉ quoted content :=
  (stringText_quoted content).printable.newline_not_mem

/-! ### Members -/

private theorem memberText_member (name value : String) :
    Json.MemberText (name, value) (member name value) := by
  have derived := Json.MemberText.colon Json.space_nil (stringText_quoted name) Json.space_nil
    Json.space_nil (stringText_quoted value)
  simpa [member] using derived

/-- Members with a comma in front of each but the first. -/
theorem membersText_flatMap (first : String × String) (others : List (String × String)) :
    Json.MembersText (first :: others)
      (member first.1 first.2 ++ others.flatMap fun (name, value) => ',' :: member name value) := by
  induction others generalizing first with
  | nil =>
    have derived := Json.MembersText.last (memberText_member first.1 first.2) Json.space_nil
    simpa using derived
  | cons next rest ih =>
    have derived := Json.MembersText.cons (memberText_member first.1 first.2) Json.space_nil
      (ih next)
    simpa using derived

variable (entry : LogEntry)

/-- What a line tells, in the order of the line. -/
def members : List (String × String) :=
  ("event", entry.event) :: ("severity", entry.severity.name) :: entry.sortedFields

/-- The line up to its newline. -/
def body : List Char :=
  '{' :: (member "event" entry.event ++ ',' :: member "severity" entry.severity.name ++
    entry.sortedFields.flatMap fun (name, value) => ',' :: member name value) ++ ['}']

private theorem toList_line : entry.line.toList = entry.body ++ ['\n'] := by
  rw [line, String.toList_ofList, lineCharacters, body]
  simp

private theorem objectText_body : Json.ObjectText entry.members entry.body := by
  have derived := membersText_flatMap ("event", entry.event)
    (("severity", entry.severity.name) :: entry.sortedFields)
  simpa [body, members] using Json.ObjectText.members derived

private theorem newline_not_mem_body : '\n' ∉ entry.body := by
  have unbroken (name value : String) : '\n' ∉ member name value := by
    simp [member, newline_not_mem_quoted]
  simp [body, unbroken]

/-! ### Order of the fields -/

theorem sortedFields_perm : entry.sortedFields.Perm entry.fields := List.mergeSort_perm _ _

theorem sortedFields_pairwise (distinct : (entry.fields.map (·.1)).Nodup) :
    entry.sortedFields.Pairwise (·.1 < ·.1) := by
  have sorted : entry.sortedFields.Pairwise fun left right => left.1 ≤ right.1 := by
    have ordered : entry.sortedFields.Pairwise fun left right =>
        decide (left.1 ≤ right.1) = true :=
      List.pairwise_mergeSort (fun first second third => by simpa using String.le_trans)
        (fun first second => by simpa using String.le_total first.1 second.1) _
    exact ordered.imp of_decide_eq_true
  have apart : entry.sortedFields.Pairwise fun left right => left.1 ≠ right.1 :=
    List.pairwise_map.mp ((entry.sortedFields_perm.map _).nodup_iff.mpr distinct)
  exact (sorted.and apart).imp fun ⟨le, ne⟩ => lt_of_le_of_ne le ne

private theorem sortedFields_congr {fields : List (String × String)} (perm : fields.Perm entry.fields)
    (distinct : (entry.fields.map (·.1)).Nodup) :
    { entry with fields := fields }.sortedFields = entry.sortedFields := by
  have again : (fields.map (·.1)).Nodup := (perm.map _).nodup_iff.mpr distinct
  have together := (sortedFields_perm { entry with fields := fields }).trans
    (perm.trans entry.sortedFields_perm.symm)
  refine together.eq_of_pairwise (fun left right _ _ below above => ?_)
    (sortedFields_pairwise _ again) (entry.sortedFields_pairwise distinct)
  exact absurd above (lt_asymm below)

/-! ### Lines -/

/-- No name comes twice in a line. -/
theorem names_nodup (distinct : (entry.fields.map (·.1)).Nodup)
    (free : ∀ field ∈ entry.fields, field.1 ≠ "event" ∧ field.1 ≠ "severity") :
    (entry.members.map (·.1)).Nodup := by
  have names := (entry.sortedFields_perm.map (·.1)).nodup_iff.mpr distinct
  have unlike (name : String) (other : ∀ field ∈ entry.fields, field.1 ≠ name) :
      name ∉ entry.sortedFields.map (·.1) := by
    intro member
    obtain ⟨field, inner, same⟩ := List.mem_map.mp member
    exact other field (entry.sortedFields_perm.mem_iff.mp inner) same
  have event := unlike "event" fun field member => (free field member).1
  have severity := unlike "severity" fun field member => (free field member).2
  rw [members, List.map_cons, List.map_cons, List.nodup_cons, List.nodup_cons, List.mem_cons]
  exact ⟨not_or.mpr ⟨show "event" ≠ "severity" by decide, event⟩, severity, names⟩

/-- A reader of JSON finds the members of a line as they were given. -/
theorem parse?_line : Json.parse? entry.line =
    some (.object (entry.members.map fun (name, value) => (name, .string value))) := by
  have newline : Json.Space ['\n'] := List.forall_mem_cons.mpr ⟨by decide, nofun⟩
  have read := entry.objectText_body.parse Json.space_nil newline
  rwa [List.nil_append, ← entry.toList_line, String.ofList_toList] at read

/-- Where the fields have names of their own, the line is one JSON object and then a newline, the only
one. The members of the object are the event, the severity and the fields in order of their names; the
reader finds each as it was given, and finds the same whatever order the fields came in. -/
theorem line_decodes (distinct : (entry.fields.map (·.1)).Nodup)
    (free : ∀ field ∈ entry.fields, field.1 ≠ "event" ∧ field.1 ≠ "severity") :
    ∃ body sorted members, entry.line.toList = body ++ ['\n'] ∧ '\n' ∉ body ∧
      members = ("event", entry.event) :: ("severity", entry.severity.name) :: sorted ∧
      sorted.Perm entry.fields ∧ sorted.Pairwise (·.1 < ·.1) ∧ (members.map (·.1)).Nodup ∧
      Json.ObjectText members body ∧ (∀ others, Json.ObjectText others body → others = members) ∧
      Json.parse? entry.line = some (.object (members.map fun (name, value) =>
        (name, .string value))) ∧
      ∀ fields : List (String × String), fields.Perm entry.fields →
        { entry with fields := fields }.line = entry.line := by
  have derived := entry.objectText_body
  refine ⟨entry.body, entry.sortedFields, entry.members, entry.toList_line,
    entry.newline_not_mem_body, rfl, entry.sortedFields_perm, entry.sortedFields_pairwise distinct,
    entry.names_nodup distinct free, derived, fun others again => derived.unique again,
    entry.parse?_line, fun fields perm => ?_⟩
  rw [line, lineCharacters, sortedFields_congr entry perm distinct]
  rfl

/-- Two fields out of order, whose texts hold a quote, control characters of both kinds and a character
beyond the first plane. -/
theorem line_decodes_controls :
    let entry : LogEntry :=
      ⟨.warn, "disk \"a\"", [("zone", "\x01\x7f\u0085😀"), ("apple", "b\\\n")]⟩
    ((entry.fields.map (·.1)).Nodup ∧
        ∀ field ∈ entry.fields, field.1 ≠ "event" ∧ field.1 ≠ "severity") ∧
      Json.parse? entry.line = some (.object [("event", .string "disk \"a\""),
        ("severity", .string "WARN"), ("apple", .string "b\\\n"),
        ("zone", .string "\x01\x7f\u0085😀")]) ∧
      { entry with fields := entry.fields.reverse }.line = entry.line := by
  intro entry
  have distinct : (entry.fields.map (·.1)).Nodup := by decide
  have free : ∀ field ∈ entry.fields, field.1 ≠ "event" ∧ field.1 ≠ "severity" := by decide
  obtain ⟨_, sorted, members, -, -, rfl, perm, ascending, -, -, -, read, same⟩ :=
    line_decodes entry distinct free
  have inOrder : entry.fields.reverse.Pairwise (·.1 < ·.1) := by decide
  have sorted_eq := (perm.trans (List.reverse_perm _).symm).eq_of_pairwise
    (fun left right _ _ below above => absurd above (lt_asymm below)) ascending inOrder
  rw [sorted_eq] at read
  exact ⟨⟨distinct, free⟩, read, same _ (List.reverse_perm _)⟩

end LogEntry

end RowPipeline
