import RowPipeline.Json.Record
import RowPipeline.Proofs.NumberTexts

/-!
Documents as text and back. Every document with numbers that a reader keeps, which nests no deeper
than the reader goes, is read from its own text.
-/

namespace RowPipeline

namespace Json

/-! ### Strings -/

private theorem hexDigit?_hexDigit {value : Nat} (bound : value < 16) :
    hexDigit? (hexDigit value) = some value := by
  decide +revert +kernel

theorem readString_cons {character : Char} (quote : character ≠ '"') (slash : character ≠ '\\')
    (shown : ¬ character.toNat < 0x20) (rest : List Char) :
    readString (character :: rest) =
      (readString rest).map fun read => (character :: read.1, read.2) := by
  rw [readString.eq_def]
  split
  next same => exact absurd (List.cons.inj same).1 quote
  next same => exact absurd (List.cons.inj same).1 slash
  next same => exact absurd (List.cons.inj same).1 slash
  next same =>
    obtain ⟨rfl, rfl⟩ := List.cons.inj same
    rw [if_neg shown]
    cases readString rest <;> rfl
  next same => cases same

theorem readString_letter {letter character : Char} (known : simpleEscape? letter = some character)
    (rest : List Char) : readString ('\\' :: letter :: rest) =
      (readString rest).map fun read => (character :: read.1, read.2) := by
  have other : letter ≠ 'u' := by
    rintro rfl
    cases known
  rw [readString, known]
  · cases readString rest <;> rfl
  · exact fun _ _ _ _ _ same _ => other same

private theorem readString_unit {value : Nat} (bound : value < 0x20) (rest : List Char) :
    readString ('\\' :: 'u' :: '0' :: '0' :: hexDigit (value / 16) :: hexDigit (value % 16) :: rest) =
      (readString rest).map fun read => (Char.ofNat value :: read.1, read.2) := by
  have zero : hexDigit? '0' = some 0 := by decide
  have unit : hexUnit? '0' '0' (hexDigit (value / 16)) (hexDigit (value % 16)) = some value := by
    rw [hexUnit?, zero, hexDigit?_hexDigit (by omega), hexDigit?_hexDigit (by omega)]
    exact congrArg some (by omega)
  rw [readString, unit, Option.bind_eq_bind, Option.bind_some, if_pos (by simp; omega)]
  cases readString rest <;> rfl

/-- A character is read from its form inside a string. -/
theorem readString_escape (character : Char) (rest : List Char) :
    readString (escape character ++ rest) =
      (readString rest).map fun read => (character :: read.1, read.2) := by
  unfold escape
  split
  case h_8 quote slash _ _ _ _ _ =>
    split
    next control =>
      have read := readString_unit control rest
      rwa [Char.ofNat_toNat] at read
    next shown => exact readString_cons quote slash shown rest
  all_goals exact readString_letter rfl rest

/-- A string is read up to its closing quote. -/
theorem readString_flatMap (characters rest : List Char) :
    readString (characters.flatMap escape ++ '"' :: rest) = some (characters, rest) := by
  induction characters with
  | nil => rw [List.flatMap_nil, List.nil_append, readString]
  | cons first others ih =>
    rw [List.flatMap_cons, List.append_assoc, readString_escape, ih]
    rfl

private theorem readName_flatMap (text : String) (rest : List Char) :
    readName (text.toList.flatMap escape ++ '"' :: rest) = some (text, rest) := by
  rw [readName, readString_flatMap]
  exact congrArg some (congrArg (·, rest) String.ofList_toList)

/-! ### Numbers -/

/-- A number starts with a digit or with its sign. -/
def StartsNumber (character : Char) : Prop := character.isDigit = true ∨ character = '-'

instance : DecidablePred StartsNumber := fun _ => inferInstanceAs (Decidable (_ ∨ _))

private theorem head_of_wholePart {input : List Char} {read : List Char × List Char}
    (found : wholePart input = some read) :
    ∃ first others, input = first :: others ∧ first.isDigit = true := by
  unfold wholePart at found
  split at found
  next rest => exact ⟨'0', rest, rfl, by decide⟩
  next =>
    cases input with
    | nil => cases found
    | cons first others =>
      refine ⟨first, others, rfl, ?_⟩
      by_contra other
      simp [digitRun, other] at found

private theorem head_of_readNumber {input : List Char} {read : JsonNumber × List Char}
    (found : readNumber input = some read) :
    ∃ first others, input = first :: others ∧ StartsNumber first := by
  unfold readNumber at found
  split at found
  next rest => exact ⟨'-', rest, rfl, .inr rfl⟩
  next =>
    rw [readUnsigned, literalParts] at found
    cases whole : wholePart input with
    | none => simp [whole] at found
    | some parts =>
      obtain ⟨first, others, same, digit⟩ := head_of_wholePart whole
      exact ⟨first, others, same, .inl digit⟩

private theorem readValue_number (depth : Nat) {first : Char} (starts : StartsNumber first)
    (others : List Char) : readValue depth (first :: others) =
      (readNumber (first :: others)).map fun read => (.number read.1, read.2) := by
  have other {character : Char} (unlike : ¬ StartsNumber character) : first ≠ character :=
    fun same => unlike (same ▸ starts)
  rw [readValue.eq_def]
  split
  case h_7 => rfl
  all_goals next same => exact absurd (List.cons.inj same).1 (other (by decide))

/-! ### Documents -/

mutual

/-- A reader keeps the numbers of the document as they are. -/
def IsReadable : Json → Prop
  | .number (.integer value) => fitsInteger value = true
  | .number (.double value) => value.isFinite = true
  | .array items => ItemsReadable items
  | .object members => MembersReadable members
  | _ => True

def ItemsReadable : List Json → Prop
  | [] => True
  | item :: rest => IsReadable item ∧ ItemsReadable rest

def MemberReadable : String × Json → Prop
  | (_, json) => IsReadable json

def MembersReadable : List (String × Json) → Prop
  | [] => True
  | member :: rest => MemberReadable member ∧ MembersReadable rest

end

private theorem readNumber_numberText {number : JsonNumber} (readable : (Json.number number).IsReadable)
    {rest : List Char} (ends : EndsNumber rest) :
    readNumber (numberText number ++ rest) = some (number, rest) := by
  cases number with
  | integer value => exact readNumber_integerText ends readable
  | double value => exact readNumber_finiteText readable ends

theorem endsNumber_nil : EndsNumber [] := nofun

/-- A character that stands neither for space nor for the end of a list. -/
def StartsItem (character : Char) : Prop :=
  isSpace character = false ∧ character ≠ ']' ∧ character ≠ '}'

instance : DecidablePred StartsItem := fun _ => inferInstanceAs (Decidable (_ ∧ _))

private theorem StartsNumber.startsItem {character : Char} (starts : StartsNumber character) :
    StartsItem character := by
  have other {unlike : Char} (no : ¬ StartsNumber unlike) : character ≠ unlike :=
    fun same => no (same ▸ starts)
  refine ⟨?_, other (by decide), other (by decide)⟩
  simp only [isSpace, Bool.or_eq_false_iff, beq_eq_false_iff_ne]
  exact ⟨⟨⟨other (by decide), other (by decide)⟩, other (by decide)⟩, other (by decide)⟩

theorem render_starts {json : Json} (readable : json.IsReadable) :
    ∃ first others, json.render = first :: others ∧ StartsItem first := by
  match json with
  | .null => exact ⟨'n', ['u', 'l', 'l'], by rw [render], by decide⟩
  | .bool true => exact ⟨'t', ['r', 'u', 'e'], by rw [render], by decide⟩
  | .bool false => exact ⟨'f', ['a', 'l', 's', 'e'], by rw [render], by decide⟩
  | .string text => exact ⟨'"', _, by rw [render, quoted, List.cons_append], by decide⟩
  | .array items => exact ⟨'[', _, by rw [render, List.cons_append], by decide⟩
  | .object members => exact ⟨'{', _, by rw [render, List.cons_append], by decide⟩
  | .number value =>
    have read := readNumber_numberText readable endsNumber_nil
    rw [List.append_nil] at read
    obtain ⟨first, others, same, starts⟩ := head_of_readNumber read
    exact ⟨first, others, by rw [render, same], starts.startsItem⟩

theorem skipSpace_cons {first : Char} (starts : StartsItem first) (others : List Char) :
    skipSpace (first :: others) = first :: others := by
  rw [skipSpace, List.dropWhile_cons, starts.1, if_neg Bool.false_ne_true]

theorem skipSpace_render {json : Json} (readable : json.IsReadable) (rest : List Char) :
    skipSpace (json.render ++ rest) = json.render ++ rest := by
  obtain ⟨first, others, same, starts⟩ := render_starts readable
  rw [same]
  exact skipSpace_cons starts _

/-! #### Lists of items and of members -/

theorem endsNumber_cons {next : Char} (digit : next.isDigit = false)
    (others : next ≠ '.' ∧ next ≠ 'e' ∧ next ≠ 'E') (rest : List Char) : EndsNumber (next :: rest) := by
  rintro _ ⟨⟩
  exact ⟨digit, others⟩

@[simp]
theorem skipSpace_comma (rest : List Char) : skipSpace (',' :: rest) = ',' :: rest :=
  skipSpace_cons (by decide) rest

@[simp]
theorem skipSpace_colon (rest : List Char) : skipSpace (':' :: rest) = ':' :: rest :=
  skipSpace_cons (by decide) rest

@[simp]
theorem skipSpace_quote (rest : List Char) : skipSpace ('"' :: rest) = '"' :: rest :=
  skipSpace_cons (by decide) rest

/-- Items are read that their reader reads from their own texts. -/
theorem readItemsTail_renderItems {item : Parser Json} {items : List Json}
    (readable : ∀ json ∈ items, json.IsReadable)
    (each : ∀ json ∈ items, ∀ rest, EndsNumber rest → item (json.render ++ rest) = some (json, rest))
    (nonempty : items ≠ []) {fuel : Nat} (enough : items.length ≤ fuel) (rest : List Char) :
    readItemsTail item fuel (renderItems items ++ ']' :: rest) = some (items, rest) := by
  induction items generalizing fuel with
  | nil => exact absurd rfl nonempty
  | cons first others ih =>
    obtain ⟨fuel, rfl⟩ : ∃ less, fuel = less + 1 :=
      Nat.exists_eq_add_one.mpr (Nat.lt_of_lt_of_le (Nat.succ_pos _) enough)
    have here := each first (.head _)
    have start := skipSpace_render (readable first (.head _))
    cases others with
    | nil =>
      rw [renderItems, readItemsTail, start, here _ (endsNumber_cons (by decide) (by decide) _)]
      rfl
    | cons next others =>
      have later := ih (fun json member => readable json (.tail _ member))
        (fun json member => each json (.tail _ member)) (List.cons_ne_nil _ _)
        (Nat.le_of_succ_le_succ enough)
      rw [renderItems, List.append_assoc, List.cons_append, readItemsTail, start,
        here _ (endsNumber_cons (by decide) (by decide) _)]
      simp only [Option.bind_eq_bind, Option.bind_some, skipSpace_comma, later]

/-- A member is written as its name, a colon and its value. -/
theorem readMember_renderMember {value : Parser Json} {member : String × Json}
    (readable : member.2.IsReadable)
    (reads : ∀ rest, EndsNumber rest → value (member.2.render ++ rest) = some (member.2, rest))
    {rest : List Char} (ends : EndsNumber rest) :
    readMember readName (fun _ => value) (renderMember member ++ rest) = some (member, rest) := by
  obtain ⟨name, json⟩ := member
  have quote : renderMember (name, json) ++ rest =
      '"' :: (name.toList.flatMap escape ++ '"' :: ':' :: (json.render ++ rest)) := by
    simp [renderMember, quoted]
  simp only [quote, readMember, skipSpace_quote, readName_flatMap, skipSpace_colon,
    skipSpace_render readable, reads rest ends, Option.bind_eq_bind, Option.bind_some]

private theorem readMembersTail_renderMembers {member : Parser (String × Json)}
    {members : List (String × Json)}
    (each : ∀ entry ∈ members, ∀ rest, EndsNumber rest →
      member (renderMember entry ++ rest) = some (entry, rest))
    (nonempty : members ≠ []) {fuel : Nat} (enough : members.length ≤ fuel) (rest : List Char) :
    readMembersTail member fuel (renderMembers members ++ '}' :: rest) = some (members, rest) := by
  induction members generalizing fuel with
  | nil => exact absurd rfl nonempty
  | cons first others ih =>
    obtain ⟨fuel, rfl⟩ : ∃ less, fuel = less + 1 :=
      Nat.exists_eq_add_one.mpr (Nat.lt_of_lt_of_le (Nat.succ_pos _) enough)
    have here := each first (.head _)
    cases others with
    | nil =>
      rw [renderMembers, readMembersTail, here _ (endsNumber_cons (by decide) (by decide) _)]
      rfl
    | cons next others =>
      have later := ih (fun entry member => each entry (.tail _ member)) (List.cons_ne_nil _ _)
        (Nat.le_of_succ_le_succ enough)
      rw [renderMembers, List.append_assoc, List.cons_append, readMembersTail,
        here _ (endsNumber_cons (by decide) (by decide) _)]
      simp only [Option.bind_eq_bind, Option.bind_some, skipSpace_comma, later]

private theorem length_le_renderItems {items : List Json} (readable : ∀ json ∈ items, json.IsReadable) :
    items.length ≤ (renderItems items).length := by
  induction items with
  | nil => exact Nat.zero_le _
  | cons first others ih =>
    obtain ⟨start, more, same, _⟩ := render_starts (readable first (.head _))
    have later := ih fun json member => readable json (.tail _ member)
    cases others with
    | nil => simp [renderItems, same]
    | cons next others =>
      simp only [renderItems, same, List.length_append, List.length_cons] at later ⊢
      omega

private theorem length_le_renderMembers (members : List (String × Json)) :
    members.length ≤ (renderMembers members).length := by
  induction members with
  | nil => exact Nat.zero_le _
  | cons first others ih =>
    obtain ⟨name, json⟩ := first
    cases others with
    | nil => simp [renderMembers, renderMember, quoted]
    | cons next others =>
      simp only [renderMembers, List.length_append, List.length_cons] at ih ⊢
      omega

private theorem readItems_cons {α : Type} (item : Parser α) {first : Char} (starts : StartsItem first)
    (others : List Char) : readItems item (first :: others) =
      readItemsTail item (first :: others).length (first :: others) := by
  rw [readItems, skipSpace_cons starts]
  split
  next same => exact absurd (List.cons.inj same).1 starts.2.1
  next => rfl

theorem readMembers_cons {α : Type} (member : Parser α) {first : Char} (starts : StartsItem first)
    (others : List Char) : readMembers member (first :: others) =
      readMembersTail member (first :: others).length (first :: others) := by
  rw [readMembers, skipSpace_cons starts]
  split
  next same => exact absurd (List.cons.inj same).1 starts.2.2
  next => rfl

private theorem readItems_renderItems {item : Parser Json} {items : List Json}
    (each : ∀ json ∈ items, json.IsReadable ∧
      ∀ rest, EndsNumber rest → item (json.render ++ rest) = some (json, rest)) (rest : List Char) :
    readItems item (renderItems items ++ ']' :: rest) = some (items, rest) := by
  have readable := fun json member => (each json member).1
  have reads := fun json member => (each json member).2
  cases items with
  | nil => rfl
  | cons first others =>
    obtain ⟨start, more, same, starts⟩ : ∃ start more,
        renderItems (first :: others) ++ ']' :: rest = start :: more ∧ StartsItem start := by
      obtain ⟨start, more, same, starts⟩ := render_starts (readable first (.head _))
      cases others with
      | nil => exact ⟨start, _, by rw [renderItems, same, List.cons_append], starts⟩
      | cons next others => exact ⟨start, _, by rw [renderItems, same]; rfl, starts⟩
    have enough : (first :: others).length ≤
        (renderItems (first :: others) ++ ']' :: rest).length := by
      have least := length_le_renderItems readable
      rw [List.length_append]
      omega
    have tail := readItemsTail_renderItems readable reads (List.cons_ne_nil _ _) enough rest
    rw [same] at tail ⊢
    rw [readItems_cons item starts, tail]

theorem readMembers_renderMembers {member : Parser (String × Json)} {members : List (String × Json)}
    (each : ∀ entry ∈ members, ∀ rest, EndsNumber rest →
      member (renderMember entry ++ rest) = some (entry, rest)) (rest : List Char) :
    readMembers member (renderMembers members ++ '}' :: rest) = some (members, rest) := by
  cases members with
  | nil => rfl
  | cons first others =>
    obtain ⟨more, same⟩ : ∃ more, renderMembers (first :: others) ++ '}' :: rest = '"' :: more := by
      obtain ⟨name, json⟩ := first
      cases others with
      | nil => exact ⟨_, by rw [renderMembers, renderMember, quoted]; rfl⟩
      | cons next others => exact ⟨_, by rw [renderMembers, renderMember, quoted]; rfl⟩
    have enough : (first :: others).length ≤
        (renderMembers (first :: others) ++ '}' :: rest).length := by
      have least := length_le_renderMembers (first :: others)
      rw [List.length_append]
      omega
    have tail := readMembersTail_renderMembers each (List.cons_ne_nil _ _) enough rest
    rw [same] at tail ⊢
    rw [readMembers_cons member (by decide), tail]

mutual

/-- A document is read from its own text, up to what follows it. -/
theorem readValue_render {json : Json} (readable : json.IsReadable) {depth : Nat}
    (shallow : json.height ≤ depth) {rest : List Char} (ends : EndsNumber rest) :
    readValue depth (json.render ++ rest) = some (json, rest) := by
  match json with
  | .null =>
    rw [render]
    cases depth <;> rfl
  | .bool true =>
    rw [render]
    cases depth <;> rfl
  | .bool false =>
    rw [render]
    cases depth <;> rfl
  | .string text =>
    have quote : (Json.string text).render ++ rest =
        '"' :: (text.toList.flatMap escape ++ '"' :: rest) := by
      simp [render, quoted]
    rw [quote, readValue, readName_flatMap]
    rfl
  | .number value =>
    have read := readNumber_numberText readable ends
    obtain ⟨first, others, same, starts⟩ := head_of_readNumber read
    rw [render, same, readValue_number depth starts, ← same, read]
    rfl
  | .array items =>
    obtain ⟨depth, rfl⟩ : ∃ less, depth = less + 1 := ⟨depth - 1, by rw [height] at shallow; omega⟩
    have each := readValue_items readable (Nat.le_of_succ_le_succ shallow)
    have brackets : (Json.array items).render ++ rest = '[' :: (renderItems items ++ ']' :: rest) := by
      simp [render]
    rw [brackets, readValue, readItems_renderItems each]
    rfl
  | .object members =>
    obtain ⟨depth, rfl⟩ : ∃ less, depth = less + 1 := ⟨depth - 1, by rw [height] at shallow; omega⟩
    have each := readValue_members readable (Nat.le_of_succ_le_succ shallow)
    have braces : (Json.object members).render ++ rest =
        '{' :: (renderMembers members ++ '}' :: rest) := by
      simp [render]
    rw [braces, readValue, readMembers_renderMembers fun entry member _ ends =>
      readMember_renderMember (each entry member).1 (each entry member).2 ends]
    rfl

private theorem readValue_items {items : List Json} (readable : ItemsReadable items) {depth : Nat}
    (shallow : itemsHeight items ≤ depth) : ∀ json ∈ items, json.IsReadable ∧
      ∀ rest, EndsNumber rest → readValue depth (json.render ++ rest) = some (json, rest) := by
  match items with
  | [] => exact fun _ member => nomatch member
  | first :: others =>
    have shallow := Nat.max_le.mp shallow
    rintro json (_ | ⟨_, member⟩)
    · exact ⟨readable.1, fun rest ends => readValue_render readable.1 shallow.1 ends⟩
    · exact readValue_items readable.2 shallow.2 json member

private theorem readValue_members {members : List (String × Json)} (readable : MembersReadable members)
    {depth : Nat} (shallow : membersHeight members ≤ depth) : ∀ entry ∈ members, entry.2.IsReadable ∧
      ∀ rest, EndsNumber rest → readValue depth (entry.2.render ++ rest) = some (entry.2, rest) := by
  match members with
  | [] => exact fun _ member => nomatch member
  | (name, json) :: others =>
    have shallow := Nat.max_le.mp shallow
    rintro entry (_ | ⟨_, member⟩)
    · exact ⟨readable.1, fun rest ends => readValue_render readable.1 shallow.1 ends⟩
    · exact readValue_members readable.2 shallow.2 entry member

end

/-- A document is read from its own text, where it nests no deeper than is read. -/
theorem parseNested?_text {json : Json} (readable : json.IsReadable) {depth : Nat}
    (shallow : json.height ≤ depth) : parseNested? depth json.text = some json := by
  have read := readValue_render readable shallow endsNumber_nil
  have start := skipSpace_render readable []
  rw [List.append_nil] at read start
  rw [parseNested?, readWhole?, text, String.toList_ofList, start, read]
  rfl

theorem parse?_text {json : Json} (readable : json.IsReadable) (shallow : json.height ≤ depthLimit) :
    parse? json.text = some json :=
  parseNested?_text readable shallow

end Json

end RowPipeline
