import RowPipeline.Projection.Parser
import RowPipeline.Projection.Printer
import RowPipeline.Proofs.CellTexts

/-!
Documents that are read from their texts as they are, and records that are read from documents. What
is written with every field, in the order of the names, is read back field by field.
-/

namespace RowPipeline

/-! ### Documents -/

namespace Json

mutual

/-- A reader keeps all numbers, and the members of every object are in the order of their names. -/
def IsKept : Json → Prop
  | .number (.integer value) => fitsInteger value = true
  | .number (.double value) => value.isFinite = true
  | .array items => ItemsKept items
  | .object members => Dictionary.Ascending members ∧ MembersKept members
  | _ => True

def ItemsKept : List Json → Prop
  | [] => True
  | item :: rest => IsKept item ∧ ItemsKept rest

def MemberKept : String × Json → Prop
  | (_, json) => IsKept json

def MembersKept : List (String × Json) → Prop
  | [] => True
  | member :: rest => MemberKept member ∧ MembersKept rest

end

mutual

theorem IsKept.isReadable {json : Json} (kept : json.IsKept) : json.IsReadable := by
  match json with
  | .null => trivial
  | .bool _ => trivial
  | .number (.integer _) => exact kept
  | .number (.double _) => exact kept
  | .string _ => trivial
  | .array _ => exact ItemsKept.itemsReadable kept
  | .object _ => exact MembersKept.membersReadable kept.2

theorem ItemsKept.itemsReadable {items : List Json} (kept : ItemsKept items) : ItemsReadable items := by
  match items with
  | [] => trivial
  | _ :: _ => exact ⟨kept.1.isReadable, kept.2.itemsReadable⟩

theorem MembersKept.membersReadable {members : List (String × Json)} (kept : MembersKept members) :
    MembersReadable members := by
  match members with
  | [] => trivial
  | (_, json) :: _ =>
    have first : json.IsKept := kept.1
    exact ⟨first.isReadable, kept.2.membersReadable⟩

end

mutual

theorem IsKept.canonical_eq {json : Json} (kept : json.IsKept) : json.canonical = json := by
  match json with
  | .null => rfl
  | .bool _ => rfl
  | .number _ => rfl
  | .string _ => rfl
  | .array _ => rw [canonical, ItemsKept.canonicalItems_eq kept]
  | .object _ => rw [canonical, kept.2.canonicalMembers_eq, Dictionary.ofList_of_ascending kept.1]

private theorem ItemsKept.canonicalItems_eq {items : List Json} (kept : ItemsKept items) :
    canonicalItems items = items := by
  match items with
  | [] => rfl
  | _ :: _ => rw [canonicalItems, kept.1.canonical_eq, kept.2.canonicalItems_eq]

theorem MembersKept.canonicalMembers_eq {members : List (String × Json)} (kept : MembersKept members) :
    canonicalMembers members = members := by
  match members with
  | [] => rfl
  | (_, json) :: _ =>
    have first : json.IsKept := kept.1
    rw [canonicalMembers, canonicalMember, first.canonical_eq, kept.2.canonicalMembers_eq]

end

private theorem itemsKept_iff {items : List Json} : ItemsKept items ↔ ∀ item ∈ items, item.IsKept := by
  induction items with
  | nil => simp [ItemsKept]
  | cons item rest ih => rw [ItemsKept, ih, List.forall_mem_cons]

private theorem membersKept_iff {members : List (String × Json)} :
    MembersKept members ↔ ∀ member ∈ members, member.2.IsKept := by
  induction members with
  | nil => simp [MembersKept]
  | cons member rest ih => rw [MembersKept, ih, List.forall_mem_cons, MemberKept]

/-- What a count can be: a number of 64 bits. -/
abbrev FitsWord (number : Nat) : Prop := number < 0x10000000000000000

theorem isKept_nat {number : Nat} (bound : FitsWord number) : (nat number).IsKept := by
  have fits : fitsInteger number = true := by
    simp only [fitsInteger, Bool.and_eq_true, decide_eq_true_eq]
    omega
  exact fits

/-! ### What is written and read back -/

/-- A value is read back from the document that is written of it. -/
structure Restores {α : Type} (toJson : α → Json) (ofJson? : Json → Option α) (value : α) : Prop where
  kept : (toJson value).IsKept
  read : ofJson? (toJson value) = some value

variable {α : Type} {toJson : α → Json} {ofJson? : Json → Option α}

theorem restores_natBelow {bound number : Nat} (below : number < bound)
    (word : bound ≤ 0x10000000000000000) : Restores nat (natBelow? bound) number where
  kept := isKept_nat (Nat.lt_of_lt_of_le below word)
  read := by simp [nat, integer, natBelow?, below]

theorem restores_count {number : Nat} (fits : FitsWord number) : Restores nat count? number :=
  restores_natBelow fits (Nat.le_refl _)

private theorem restores_string (text : String) : Restores .string string? text := ⟨trivial, rfl⟩

private theorem restores_bool (value : Bool) : Restores .bool bool? value := ⟨trivial, rfl⟩

/-- What is written piece by piece is read piece by piece. -/
theorem mapM_map {β : Type} {write : α → β} {read? : β → Option α} {values : List α}
    (read : ∀ value ∈ values, read? (write value) = some value) :
    (values.map write).mapM read? = some values := by
  induction values with
  | nil => rfl
  | cons value rest ih =>
    rw [List.map_cons, List.mapM_cons, read value List.mem_cons_self,
      ih fun other member => read other (.tail _ member)]
    rfl

theorem restores_list {values : List α} (each : ∀ value ∈ values, Restores toJson ofJson? value) :
    Restores (ofList toJson) (arrayOf? ofJson?) values where
  kept := by
    rw [ofList, IsKept, itemsKept_iff]
    intro json member
    obtain ⟨value, there, rfl⟩ := List.mem_map.mp member
    exact (each value there).kept
  read := mapM_map fun value member => (each value member).read

theorem restores_flags (flags : List Bool) : Restores (ofList .bool) (arrayOf? bool?) flags :=
  restores_list fun flag _ => restores_bool flag

theorem restores_strings (texts : List String) : Restores strings (arrayOf? string?) texts :=
  restores_list fun text _ => restores_string text

theorem isKept_ofOption {value : Option α} (each : ∀ inner ∈ value, Restores toJson ofJson? inner) :
    (ofOption toJson value).IsKept := by
  cases value with
  | none => trivial
  | some inner => exact (each inner rfl).kept

theorem restores_dictionary {entries : Dictionary String α} (ascending : entries.Ascending)
    (each : ∀ entry ∈ entries, Restores toJson ofJson? entry.2) :
    Restores (ofDictionary toJson) (dictionaryOf? ofJson?) entries where
  kept := by
    refine ⟨ascending.map _ fun _ _ below => below, membersKept_iff.mpr fun member there => ?_⟩
    obtain ⟨entry, inside, rfl⟩ := List.mem_map.mp there
    exact (each entry inside).kept
  read := by
    have written : ofDictionary toJson entries =
        .object (entries.map fun entry => (entry.1, toJson entry.2)) := rfl
    have entries_read : (entries.map fun entry => (entry.1, toJson entry.2)).mapM
        (fun (member : String × Json) => (ofJson? member.2).map (member.1, ·)) = some entries :=
      mapM_map fun entry member => by rw [(each entry member).read]; rfl
    rw [written, dictionaryOf?, entries_read, Option.map_some,
      Dictionary.ofList_of_ascending ascending]

/-- A thing of a few that have names of their own is read back from its name. -/
theorem restores_name {all : List α} {name : α → String} {thing : α}
    (found : all.find? (fun other => name other == name thing) = some thing) :
    Restores (fun thing => .string (name thing)) (named? true all name) thing := ⟨trivial, found⟩

end Json

/-! ### Records -/

namespace Record

variable {α β : Type} {names : List String} {members : List (String × Json)}

/-- The members with the given names. -/
def pick (names : List String) (members : List (String × Json)) : Record :=
  members.filter fun (name, _) => names.contains name

private theorem hasRepeats_of_ascending (ascending : Dictionary.Ascending members) :
    hasRepeats (members.map (·.1)) = false := by
  induction members with
  | nil => rfl
  | cons member rest ih =>
    obtain ⟨above, later⟩ := List.pairwise_cons.mp ascending
    rw [List.map_cons, hasRepeats, ih later, Bool.or_false, List.contains_eq_mem, decide_eq_false_iff_not]
    intro repeated
    obtain ⟨other, there, same⟩ := List.mem_map.mp repeated
    have below := above other there
    rw [same, Std.ReflOrd.compare_self] at below
    cases below

theorem lookup_pick {name : String} (known : names.contains name = true) :
    (pick names members).lookup name = members.lookup name := by
  induction members with
  | nil => rfl
  | cons member rest ih =>
    obtain ⟨other, json⟩ := member
    have head : pick names ((other, json) :: rest) =
        if names.contains other then (other, json) :: pick names rest else pick names rest :=
      List.filter_cons
    rw [head]
    by_cases same : name = other
    · rw [← same, if_pos known, List.lookup_cons_self, List.lookup_cons_self]
    · have differs : (name == other) = false := beq_eq_false_iff_ne.mpr same
      split <;> simp only [List.lookup_cons, differs, ih]

theorem bind_of_eq {read : Option α} {value : α} {rest : α → Option β} {result : Option β}
    (same : read = some value) (continued : rest value = result) : (read >>= rest) = result := by
  rw [same]
  exact continued

/-- The members of an object whose names ascend are a record. -/
theorem bind_object (ascending : Dictionary.Ascending members) {rest : Record → Option α}
    {result : Option α} (continued : rest (pick names members) = result) :
    (ofJson? names (.object members) >>= rest) = result := by
  have picked : Dictionary.Ascending (pick names members) := ascending.filter _
  exact bind_of_eq (if_neg (ne_true_of_eq_false (hasRepeats_of_ascending picked))) continued

variable {name : String} {json : Json} {result : Option β}

theorem required_pick {value? : Json → Option α} {value : α} (known : names.contains name = true)
    (found : members.lookup name = some json) (read : value? json = some value) :
    (pick names members).required name value? = some value := by
  rw [required, lookup_pick known, found, Option.bind_some, read]

theorem bind_required {value? : Json → Option α} {value : α} {rest : α → Option β}
    (known : names.contains name = true) (found : members.lookup name = some json)
    (read : value? json = some value) (continued : rest value = result) :
    ((pick names members).required name value? >>= rest) = result :=
  bind_of_eq (required_pick known found read) continued

theorem bind_defaulted {value? : Json → Option α} {default value : α} {rest : α → Option β}
    (known : names.contains name = true) (found : members.lookup name = some json)
    (read : value? json = some value) (continued : rest value = result) :
    ((pick names members).defaulted name default value? >>= rest) = result := by
  refine bind_of_eq ?_ continued
  simp only [defaulted, lookup_pick known, found, read]

/-- A field that may be null is read back if what it holds is never written as null. -/
theorem bind_optional {value? : Json → Option α} {toJson : α → Json} {value : Option α}
    {rest : Option α → Option β} (known : names.contains name = true)
    (found : members.lookup name = some (Json.ofOption toJson value))
    (filled : ∀ value, toJson value ≠ .null)
    (read : ∀ inner ∈ value, Json.Restores toJson value? inner) (continued : rest value = result) :
    ((pick names members).optional name value? >>= rest) = result := by
  refine bind_of_eq ?_ continued
  rw [optional, lookup_pick known, found]
  cases value with
  | none => rfl
  | some inner =>
    have restored := (read inner rfl).read
    rw [Json.ofOption]
    split
    next null => exact absurd (Option.some.inj null) (filled inner)
    next same =>
      rw [← Option.some.inj same, restored]
      rfl
    next none => cases none

end Record

/-! ### Texts -/

/-- The text of a document is read as the document, with the members of its objects in order. -/
theorem Projection.document_text {json : Json} (readable : json.IsReadable)
    (shallow : json.height ≤ Json.depthLimit) : document json.text = .ok json.canonical := by
  rw [document, Json.parse?_text readable shallow]

end RowPipeline
