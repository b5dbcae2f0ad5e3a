import RowPipeline.Proofs.JsonTexts

/-!
The grammar of JSON for strings and for objects of strings, apart from the reader. The reader reads
everything that the grammar derives, and no string holds a control character as it is; so documents are
printed on one line.
-/

namespace RowPipeline

namespace Json

/-- The hexadecimal digits, in both cases. -/
def hexadecimal : List (Char × Nat) :=
  ['0', '1', '2', '3', '4', '5', '6', '7', '8', '9'].zip (List.range 10) ++
    ['a', 'b', 'c', 'd', 'e', 'f'].zip (List.range' 10 6) ++
    ['A', 'B', 'C', 'D', 'E', 'F'].zip (List.range' 10 6)

/-- The letters after a backslash, with the characters that they stand for. -/
def escapes : List (Char × Char) :=
  [('"', '"'), ('\\', '\\'), ('/', '/'), ('b', '\x08'), ('f', '\x0c'), ('n', '\n'), ('r', '\r'),
    ('t', '\t')]

/-- Four digits with the number that they make. -/
inductive UnitText : Nat → List Char → Prop where
  | digits : (first, a) ∈ hexadecimal → (second, b) ∈ hexadecimal → (third, c) ∈ hexadecimal →
      (fourth, d) ∈ hexadecimal →
      UnitText (0x1000 * a + 0x100 * b + 0x10 * c + d) [first, second, third, fourth]

/-- The forms of a character inside a string. -/
inductive CharacterText : Char → List Char → Prop where
  | plain : 0x20 ≤ character.toNat → character ≠ '"' → character ≠ '\\' →
      CharacterText character [character]
  | letter : (letter, character) ∈ escapes → CharacterText character ['\\', letter]
  | unit : UnitText unit digits → unit < 0xd800 ∨ 0xe000 ≤ unit →
      CharacterText (Char.ofNat unit) ('\\' :: 'u' :: digits)
  | pair : UnitText high digits → UnitText low others → 0xd800 ≤ high → high < 0xdc00 →
      0xdc00 ≤ low → low < 0xe000 →
      CharacterText (Char.ofNat (0x10000 + (high - 0xd800) * 0x400 + (low - 0xdc00)))
        ('\\' :: 'u' :: digits ++ '\\' :: 'u' :: others)

/-- The characters between the quotes of a string. -/
inductive CharactersText : List Char → List Char → Prop where
  | nil : CharactersText [] []
  | cons : CharacterText character form → CharactersText characters body →
      CharactersText (character :: characters) (form ++ body)

inductive StringText : String → List Char → Prop where
  | quoted (body : List Char) : CharactersText content.toList body →
      StringText content ('"' :: body ++ ['"'])

/-- Space between the parts of a document. -/
def Space (between : List Char) : Prop :=
  ∀ character ∈ between, character ∈ [' ', '\t', '\n', '\r']

theorem space_nil : Space [] := nofun

inductive MemberText : String × String → List Char → Prop where
  | colon : Space before → StringText name key → Space between → Space after →
      StringText value form →
      MemberText (name, value) (before ++ key ++ between ++ ':' :: after ++ form)

inductive MembersText : List (String × String) → List Char → Prop where
  | last : MemberText member form → Space after → MembersText [member] (form ++ after)
  | cons : MemberText member form → Space after → MembersText members others →
      MembersText (member :: members) (form ++ after ++ ',' :: others)

/-- An object of which all members are strings. -/
inductive ObjectText : List (String × String) → List Char → Prop where
  | empty : Space body → ObjectText [] ('{' :: body ++ ['}'])
  | members : MembersText members body → ObjectText members ('{' :: body ++ ['}'])

/-! ### What the reader makes of strings -/

theorem hexDigit?_of_mem {digit : Char} {value : Nat} (known : (digit, value) ∈ hexadecimal) :
    hexDigit? digit = some value := by
  have all : ∀ entry ∈ hexadecimal, hexDigit? entry.1 = some entry.2 := by decide +kernel
  exact all _ known

private theorem simpleEscape?_of_mem {letter character : Char} (known : (letter, character) ∈ escapes) :
    simpleEscape? letter = some character := by
  have all : ∀ entry ∈ escapes, simpleEscape? entry.1 = some entry.2 := by decide
  exact all _ known

theorem UnitText.read {unit : Nat} {digits : List Char} (derived : UnitText unit digits) :
    ∃ first second third fourth, digits = [first, second, third, fourth] ∧
      hexUnit? first second third fourth = some unit := by
  cases derived with
  | digits first second third fourth =>
    refine ⟨_, _, _, _, rfl, ?_⟩
    simp only [hexUnit?, hexDigit?_of_mem first, hexDigit?_of_mem second, hexDigit?_of_mem third,
      hexDigit?_of_mem fourth, Option.bind_eq_bind, Option.bind_some]
    exact congrArg some (by omega)

/-- A character is read from each of its forms. -/
theorem CharacterText.read {character : Char} {form : List Char}
    (derived : CharacterText character form) (rest : List Char) :
    readString (form ++ rest) = (readString rest).map fun read => (character :: read.1, read.2) := by
  cases derived with
  | plain shown quote slash => exact readString_cons quote slash (by omega) rest
  | letter known => exact readString_letter (simpleEscape?_of_mem known) rest
  | unit digits whole =>
    obtain ⟨first, second, third, fourth, rfl, unit⟩ := digits.read
    simp only [List.cons_append, List.nil_append]
    rw [readString, unit, Option.bind_eq_bind, Option.bind_some, if_pos (by simpa using whole)]
    cases readString rest <;> rfl
  | pair digits others high wide low narrow =>
    obtain ⟨first, second, third, fourth, rfl, upper⟩ := digits.read
    obtain ⟨fifth, sixth, seventh, eighth, rfl, lower⟩ := others.read
    simp only [List.cons_append, List.nil_append]
    rw [readString, upper, Option.bind_eq_bind, Option.bind_some, if_neg (by simp; omega),
      if_pos wide]
    split
    next same =>
      cases same
      rw [lower, Option.bind_some, if_pos (by simp; omega)]
      cases readString rest <;> rfl
    next other => exact absurd rfl (other _ _ _ _ _)

theorem CharactersText.read {characters inner : List Char}
    (derived : CharactersText characters inner) (rest : List Char) :
    readString (inner ++ '"' :: rest) = some (characters, rest) := by
  induction derived with
  | nil => rw [List.nil_append, readString]
  | cons first others ih =>
    rw [List.append_assoc, first.read, ih]
    rfl

/-- A string is read up to its closing quote. -/
theorem StringText.read {content : String} {form : List Char} (derived : StringText content form)
    (rest : List Char) :
    ∃ inner, form ++ rest = '"' :: inner ∧ readName inner = some (content, rest) := by
  cases derived with
  | quoted inner characters =>
    refine ⟨inner ++ '"' :: rest, by simp, ?_⟩
    rw [readName, characters.read]
    exact congrArg some (congrArg (·, rest) String.ofList_toList)

/-! ### What the reader makes of objects -/

theorem skipSpace_space {between : List Char} (space : Space between) (rest : List Char) :
    skipSpace (between ++ rest) = skipSpace rest := by
  induction between with
  | nil => rfl
  | cons first others ih =>
    have skipped : isSpace first = true := by
      simpa [isSpace, or_assoc] using space first (.head _)
    rw [List.cons_append, skipSpace, List.dropWhile_cons, if_pos skipped]
    exact ih fun character member => space character (.tail _ member)

@[simp]
theorem skipSpace_brace (rest : List Char) : skipSpace ('}' :: rest) = '}' :: rest := rfl

/-- A member whose value is a string, as a member of a document. -/
def stringMember (member : String × String) : String × Json := (member.1, .string member.2)

variable (depth : Nat)

theorem MemberText.read {member : String × String} {form : List Char}
    (derived : MemberText member form) (rest : List Char) :
    readMember readName (fun _ => readValue depth) (form ++ rest) =
      some (stringMember member, rest) := by
  cases derived with
  | @colon before _ key between after _ form leading keyed middle trailing valued =>
    obtain ⟨inner, quoted, named⟩ := keyed.read (between ++ ':' :: (after ++ (form ++ rest)))
    obtain ⟨content, opened, known⟩ := valued.read rest
    have parts : before ++ key ++ between ++ ':' :: after ++ form ++ rest =
        before ++ (key ++ (between ++ ':' :: (after ++ (form ++ rest)))) := by simp
    rw [parts, readMember, skipSpace_space leading, quoted, skipSpace_quote]
    simp only [named, skipSpace_space middle, skipSpace_colon, skipSpace_space trailing, opened,
      skipSpace_quote, Option.bind_eq_bind, Option.bind_some]
    rw [readValue, known]
    rfl

theorem MembersText.read {members : List (String × String)} {form : List Char}
    (derived : MembersText members form) {fuel : Nat} (enough : members.length ≤ fuel)
    (rest : List Char) :
    readMembersTail (readMember readName fun _ => readValue depth) fuel (form ++ '}' :: rest) =
      some (members.map stringMember, rest) := by
  induction derived generalizing fuel with
  | last first after =>
    obtain ⟨fuel, rfl⟩ := Nat.exists_eq_add_one.mpr enough
    rw [readMembersTail, List.append_assoc, first.read, Option.bind_eq_bind, Option.bind_some]
    simp only [skipSpace_space after, skipSpace_brace]
    rfl
  | cons first after others ih =>
    obtain ⟨fuel, rfl⟩ := Nat.exists_eq_add_one.mpr (Nat.lt_of_lt_of_le (Nat.succ_pos _) enough)
    rw [readMembersTail, List.append_assoc, List.append_assoc, first.read, Option.bind_eq_bind,
      Option.bind_some]
    simp only [skipSpace_space after, List.cons_append, skipSpace_comma,
      ih (Nat.le_of_succ_le_succ enough), Option.bind_eq_bind, Option.bind_some, List.map_cons]

/-- Space in front of a member is not a part of it. -/
theorem MemberText.trim {member : String × String} {form : List Char}
    (derived : MemberText member form) : ∃ before inner, Space before ∧
      form = before ++ '"' :: inner ∧ MemberText member ('"' :: inner) := by
  cases derived with
  | @colon before _ key between after _ text leading keyed middle trailing valued =>
    have bare := MemberText.colon space_nil keyed middle trailing valued
    cases keyed with
    | quoted inner characters =>
      refine ⟨before, inner ++ '"' :: (between ++ ':' :: after ++ text), leading, by simp, ?_⟩
      simpa using bare

theorem MembersText.trim {members : List (String × String)} {form : List Char}
    (derived : MembersText members form) : ∃ before inner, Space before ∧
      form = before ++ '"' :: inner ∧ MembersText members ('"' :: inner) := by
  cases derived with
  | last first after =>
    obtain ⟨before, inner, leading, rfl, bare⟩ := first.trim
    exact ⟨before, _, leading, List.append_assoc .., .last bare after⟩
  | cons first after others =>
    obtain ⟨before, inner, leading, rfl, bare⟩ := first.trim
    refine ⟨before, inner ++ _ ++ ',' :: _, leading, ?_, .cons bare after others⟩
    simp only [List.append_assoc, List.cons_append]

private theorem MembersText.length_le {members : List (String × String)} {form : List Char}
    (derived : MembersText members form) : members.length ≤ form.length := by
  induction derived with
  | last first after =>
    obtain ⟨before, inner, -, rfl, -⟩ := first.trim
    simp only [List.length_append, List.length_cons, List.length_nil]
    omega
  | cons first after others ih =>
    simp only [List.length_append, List.length_cons]
    omega

/-- An object is read as its members. -/
theorem ObjectText.read {members : List (String × String)} {form : List Char}
    (derived : ObjectText members form) (rest : List Char) :
    readValue (depth + 1) (form ++ rest) = some (.object (members.map stringMember), rest) := by
  cases derived with
  | @empty inner space =>
    have parts : '{' :: inner ++ ['}'] ++ rest = '{' :: (inner ++ '}' :: rest) := by simp
    rw [parts, readValue, readMembers, skipSpace_space space]
    rfl
  | members derived =>
    obtain ⟨before, inner, leading, rfl, bare⟩ := derived.trim
    have enough : members.length ≤ ('"' :: inner ++ '}' :: rest).length := by
      have least := bare.length_le
      rw [List.length_append]
      omega
    have parts : '{' :: (before ++ '"' :: inner) ++ ['}'] ++ rest =
        '{' :: (before ++ ('"' :: inner ++ '}' :: rest)) := by simp
    have opened : readMembers (readMember readName fun _ => readValue depth)
          (before ++ ('"' :: inner ++ '}' :: rest)) =
        readMembers (readMember readName fun _ => readValue depth)
          ('"' :: (inner ++ '}' :: rest)) := by
      rw [readMembers, readMembers, skipSpace_space leading, List.cons_append]
    rw [parts, readValue, opened, readMembers_cons _ (by decide), ← List.cons_append,
      bare.read depth enough]
    rfl

/-- The members of an object are told by its text. -/
theorem ObjectText.unique {members others : List (String × String)} {form : List Char}
    (derived : ObjectText members form) (again : ObjectText others form) : others = members := by
  have first := derived.read 0 []
  have second := again.read 0 []
  have same := Option.some.inj (second.symm.trans first)
  have members := Json.object.inj (Prod.mk.inj same).1
  refine (List.map_inj_right fun left right same => ?_).mp members
  have parts := Prod.mk.inj same
  exact Prod.ext parts.1 (Json.string.inj parts.2)

/-- Between spaces, an object is a document that is read as its members. -/
theorem ObjectText.parse {members : List (String × String)} {form before after : List Char}
    (derived : ObjectText members form) (leading : Space before) (trailing : Space after) :
    parse? (String.ofList (before ++ form ++ after)) = some (.object (members.map stringMember)) := by
  have start : skipSpace (form ++ after) = form ++ after := by
    cases derived <;> exact skipSpace_cons (by decide) _
  have finish : skipSpace after = [] := by
    have skipped := skipSpace_space trailing []
    rwa [List.append_nil] at skipped
  rw [parse?, parseNested?, readWhole?, String.toList_ofList, List.append_assoc,
    skipSpace_space leading, start, depthLimit, derived.read, Option.bind_eq_bind, Option.bind_some]
  simp only [finish]
  rfl

/-! ### Control characters -/

/-- No control character stands in a text as it is, and so no newline. -/
def Printable (characters : List Char) : Prop := ∀ shown ∈ characters, 0x20 ≤ shown.toNat

namespace Printable

theorem nil : Printable [] := nofun

theorem cons {first : Char} {others : List Char} (here : 0x20 ≤ first.toNat)
    (there : Printable others) : Printable (first :: others) :=
  List.forall_mem_cons.mpr ⟨here, there⟩

theorem append {left right : List Char} (first : Printable left) (second : Printable right) :
    Printable (left ++ right) :=
  List.forall_mem_append.mpr ⟨first, second⟩

theorem newline_not_mem {characters : List Char} (printable : Printable characters) :
    '\n' ∉ characters := by
  intro member
  exact absurd (printable _ member) (by decide)

private theorem of_digits {digits : List Char} (all : ∀ digit ∈ digits, digit.isDigit = true) :
    Printable digits := by
  intro digit member
  have range := all digit member
  simp only [Char.isDigit, Bool.and_eq_true, decide_eq_true_eq] at range
  have least : '0'.toNat ≤ digit.toNat := range.1
  exact Nat.le_trans (by decide) least

theorem of_isDigits {digits : List Char} (isDigits : IsDigits digits) : Printable digits :=
  of_digits isDigits.all

end Printable

theorem UnitText.printable {unit : Nat} {digits : List Char} (derived : UnitText unit digits) :
    Printable digits := by
  have all : ∀ entry ∈ hexadecimal, 0x20 ≤ entry.1.toNat := by decide +kernel
  cases derived with
  | digits first second third fourth =>
    exact .cons (all _ first) (.cons (all _ second) (.cons (all _ third) (.cons (all _ fourth) .nil)))

theorem CharacterText.printable {character : Char} {form : List Char}
    (derived : CharacterText character form) : Printable form := by
  have marked {others : List Char} (printable : Printable others) :
      Printable ('\\' :: 'u' :: others) := .cons (by decide) (.cons (by decide) printable)
  cases derived with
  | plain shown _ _ => exact .cons shown .nil
  | letter known =>
    have all : ∀ entry ∈ escapes, 0x20 ≤ entry.1.toNat := by decide
    exact .cons (by decide) (.cons (all _ known) .nil)
  | unit digits _ => exact marked digits.printable
  | pair digits others _ _ _ _ => exact .append (marked digits.printable) (marked others.printable)

theorem StringText.printable {content : String} {form : List Char}
    (derived : StringText content form) : Printable form := by
  have all {characters inner : List Char} (derived : CharactersText characters inner) :
      Printable inner := by
    induction derived with
    | nil => exact .nil
    | cons first others ih => exact .append first.printable ih
  cases derived with
  | quoted inner characters =>
    exact .append (.cons (by decide) (all characters)) (.cons (by decide) .nil)

/-! ### Printed documents -/

theorem hexDigit_mem {value : Nat} (bound : value < 16) : (hexDigit value, value) ∈ hexadecimal := by
  decide +revert +kernel

/-- A string may be written character by character. -/
theorem CharactersText.flatMap {form : Char → List Char}
    (each : ∀ character, CharacterText character (form character)) (characters : List Char) :
    CharactersText characters (characters.flatMap form) := by
  induction characters with
  | nil => exact .nil
  | cons first others ih =>
    rw [List.flatMap_cons]
    exact .cons (each first) ih

theorem characterText_escape (character : Char) : CharacterText character (escape character) := by
  unfold escape
  split
  case h_8 quote slash _ _ _ _ _ =>
    split
    next control =>
      have zero : ('0', 0) ∈ hexadecimal := by decide
      have parts := UnitText.digits zero zero
        (hexDigit_mem (show character.toNat / 16 < 16 by omega))
        (hexDigit_mem (show character.toNat % 16 < 16 by omega))
      have whole : 0x1000 * 0 + 0x100 * 0 + 0x10 * (character.toNat / 16) + character.toNat % 16 =
          character.toNat := by omega
      rw [whole] at parts
      have derived := CharacterText.unit parts (.inl (by omega))
      rwa [Char.ofNat_toNat] at derived
    next shown => exact .plain (by omega) quote slash
  all_goals exact .letter (by decide)

/-- Strings are printed as the grammar has them. -/
theorem stringText_quoted (content : String) : StringText content (quoted content) :=
  .quoted _ (.flatMap characterText_escape content.toList)

end Json

namespace NumberFormat

open Json

variable (format : NumberFormat)

theorem printable_zeros (count : Nat) : Printable (zeros count) := .of_digits (zeros_isDigit count)

theorem printable_positionalText {digits : List Char} (printable : Printable digits) (point : Int) :
    Printable (format.positionalText digits point) := by
  have taken (count : Nat) : Printable (digits.take count) :=
    fun shown member => printable shown (List.mem_of_mem_take member)
  have dropped (count : Nat) : Printable (digits.drop count) :=
    fun shown member => printable shown (List.mem_of_mem_drop member)
  unfold positionalText
  split
  · exact .append (.cons (by decide) (.cons (by decide) (printable_zeros _))) printable
  · split
    · exact .append (taken _) (.cons (by decide) (dropped _))
    · refine .append (.append printable (printable_zeros _)) ?_
      split
      · exact .cons (by decide) (.cons (by decide) .nil)
      · exact .nil

private theorem printable_scientificText {digits : List Char} (printable : Printable digits)
    (exponent : Int) : Printable (scientificText digits exponent) := by
  have sign : 0x20 ≤ (if exponent < 0 then '-' else '+').toNat := by split <;> decide
  have magnitude := Printable.of_isDigits (isDigits_toDigits exponent.natAbs)
  refine .append ?_ (.cons (by decide) (.cons sign magnitude))
  match digits, printable with
  | [], _ => exact .nil
  | [_], printable => exact printable
  | _ :: _ :: _, printable =>
    obtain ⟨first, others⟩ := List.forall_mem_cons.mp printable
    exact .cons first (.cons (by decide) others)

private theorem printable_magnitudeText (number : Double) : Printable (format.magnitudeText number) := by
  have digits (value : Nat) := Printable.of_isDigits (isDigits_toDigits value)
  unfold magnitudeText
  dsimp only
  split
  · exact format.printable_positionalText (.cons (by decide) .nil) 1
  · split
    · exact format.printable_positionalText (digits _) _
    · split
      · exact format.printable_positionalText (digits _) _
      · exact printable_scientificText (digits _) _

private theorem printable_finiteText (number : Double) : Printable (format.finiteText number) := by
  unfold finiteText
  split
  · exact .cons (by decide) (format.printable_magnitudeText number)
  · exact format.printable_magnitudeText number

end NumberFormat

namespace Json

private theorem printable_numberText (number : JsonNumber) : Printable (numberText number) := by
  cases number with
  | integer value =>
    have digits := Printable.of_isDigits (isDigits_toDigits value.natAbs)
    rw [numberText, integerText]
    split
    · exact .cons (by decide) digits
    · exact digits
  | double value => exact NumberFormat.data.printable_finiteText value

mutual

/-- A document is printed on one line. -/
theorem printable_render (json : Json) : Printable json.render := by
  match json with
  | .null | .bool true | .bool false =>
    rw [render]
    repeat refine .cons (by decide) ?_
    exact .nil
  | .number value => exact printable_numberText value
  | .string value => exact (stringText_quoted value).printable
  | .array items =>
    exact .append (.cons (by decide) (printable_renderItems items)) (.cons (by decide) .nil)
  | .object members =>
    exact .append (.cons (by decide) (printable_renderMembers members)) (.cons (by decide) .nil)

private theorem printable_renderItems (items : List Json) : Printable (renderItems items) := by
  match items with
  | [] => exact .nil
  | [item] => exact printable_render item
  | item :: next :: rest =>
    exact .append (printable_render item) (.cons (by decide) (printable_renderItems (next :: rest)))

private theorem printable_renderMember (member : String × Json) : Printable (renderMember member) := by
  match member with
  | (name, json) =>
    exact .append (stringText_quoted name).printable (.cons (by decide) (printable_render json))

private theorem printable_renderMembers (members : List (String × Json)) :
    Printable (renderMembers members) := by
  match members with
  | [] => exact .nil
  | [member] => exact printable_renderMember member
  | member :: next :: rest =>
    exact .append (printable_renderMember member)
      (.cons (by decide) (printable_renderMembers (next :: rest)))

end

end Json

end RowPipeline
