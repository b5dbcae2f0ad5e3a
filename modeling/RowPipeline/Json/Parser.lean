import RowPipeline.Json.Basic
import RowPipeline.Double.Rounding

/-!
A strict reader of JSON text. Each parser takes characters and answers what it read with the
characters that are left, or `none` if they do not start with what it reads.
-/

namespace RowPipeline

namespace Json

/-- A reader of one thing at the start of the characters. -/
abbrev Parser (α : Type) := List Char → Option (α × List Char)

def isSpace (character : Char) : Bool :=
  character == ' ' || character == '\t' || character == '\n' || character == '\r'

def skipSpace (input : List Char) : List Char := input.dropWhile isSpace

def hexDigit? (character : Char) : Option Nat :=
  if '0' ≤ character && character ≤ '9' then some (character.toNat - '0'.toNat)
  else if 'a' ≤ character && character ≤ 'f' then some (character.toNat - 'a'.toNat + 10)
  else if 'A' ≤ character && character ≤ 'F' then some (character.toNat - 'A'.toNat + 10)
  else none

def hexUnit? (first second third fourth : Char) : Option Nat := do
  let first ← hexDigit? first
  let second ← hexDigit? second
  let third ← hexDigit? third
  let fourth ← hexDigit? fourth
  some (((first * 16 + second) * 16 + third) * 16 + fourth)

def simpleEscape? : Char → Option Char
  | '"' => some '"'
  | '\\' => some '\\'
  | '/' => some '/'
  | 'b' => some '\x08'
  | 'f' => some '\x0c'
  | 'n' => some '\n'
  | 'r' => some '\r'
  | 't' => some '\t'
  | _ => none

/-- The characters of a string up to its closing quote. Surrogates have to come in pairs. -/
def readString : Parser (List Char)
  | '"' :: rest => some ([], rest)
  | '\\' :: 'u' :: first :: second :: third :: fourth :: rest => do
    let unit ← hexUnit? first second third fourth
    if unit < 0xd800 || 0xe000 ≤ unit then
      let (characters, rest) ← readString rest
      some (Char.ofNat unit :: characters, rest)
    else if unit < 0xdc00 then
      match rest with
      | '\\' :: 'u' :: first :: second :: third :: fourth :: rest =>
        let low ← hexUnit? first second third fourth
        if 0xdc00 ≤ low && low < 0xe000 then
          let (characters, rest) ← readString rest
          some (Char.ofNat (0x10000 + (unit - 0xd800) * 0x400 + (low - 0xdc00)) :: characters, rest)
        else none
      | _ => none
    else none
  | '\\' :: letter :: rest => do
    let character ← simpleEscape? letter
    let (characters, rest) ← readString rest
    some (character :: characters, rest)
  | character :: rest => do
    if character.toNat < 0x20 then none
    else
      let (characters, rest) ← readString rest
      some (character :: characters, rest)
  | [] => none

def digitRun (input : List Char) : List Char × List Char :=
  (input.takeWhile (·.isDigit), input.dropWhile (·.isDigit))

def digitsValue (digits : List Char) : Nat :=
  digits.foldl (fun value digit => value * 10 + (digit.toNat - '0'.toNat)) 0

/-- The digits before the point: a zero stands alone. -/
def wholePart : Parser (List Char)
  | '0' :: rest => some (['0'], rest)
  | input =>
    let (digits, rest) := digitRun input
    if digits.isEmpty then none else some (digits, rest)

def fractionPart : Parser (Option (List Char))
  | '.' :: input =>
    let (digits, rest) := digitRun input
    if digits.isEmpty then none else some (some digits, rest)
  | input => some (none, input)

def signedExponent : Parser Int
  | '-' :: input =>
    let (digits, rest) := digitRun input
    if digits.isEmpty then none else some (-(digitsValue digits : Int), rest)
  | '+' :: input =>
    let (digits, rest) := digitRun input
    if digits.isEmpty then none else some ((digitsValue digits : Int), rest)
  | input =>
    let (digits, rest) := digitRun input
    if digits.isEmpty then none else some ((digitsValue digits : Int), rest)

def exponentPart : Parser (Option Int)
  | 'e' :: input => (signedExponent input).map fun (exponent, rest) => (some exponent, rest)
  | 'E' :: input => (signedExponent input).map fun (exponent, rest) => (some exponent, rest)
  | input => some (none, input)

/-- The integers that are kept as integers: those that fit 64 bits, signed or unsigned. -/
def fitsInteger (value : Int) : Bool := -0x8000000000000000 ≤ value && value < 0x10000000000000000

/-- The number of the parts of a literal. Only a plain integer in range stays an integer, and a
negative zero does not; every other number is the nearest double, which has to be finite. -/
def numberOf? (negative : Bool) (whole : List Char) (fraction : Option (List Char))
    (exponent : Option Int) : Option JsonNumber :=
  let value := digitsValue whole
  let signed : Int := if negative then -(value : Int) else value
  if fraction.isNone && exponent.isNone && fitsInteger signed && !(negative && value == 0) then
    some (.integer signed)
  else
    let decimals := fraction.getD []
    (Double.ofDecimal? negative (digitsValue (whole ++ decimals))
      (exponent.getD 0 - decimals.length)).map .double

/-- The parts of a literal without its sign: the digits before and after the point, and the
exponent. -/
def literalParts : Parser (List Char × Option (List Char) × Option Int) := fun input => do
  let (whole, rest) ← wholePart input
  let (fraction, rest) ← fractionPart rest
  let (exponent, rest) ← exponentPart rest
  some ((whole, fraction, exponent), rest)

def readUnsigned (negative : Bool) : Parser JsonNumber := fun input => do
  let ((whole, fraction, exponent), rest) ← literalParts input
  let number ← numberOf? negative whole fraction exponent
  some (number, rest)

def readNumber : Parser JsonNumber
  | '-' :: input => readUnsigned true input
  | input => readUnsigned false input

def readItemsTail {α : Type} (item : Parser α) : Nat → Parser (List α)
  | 0, _ => none
  | fuel + 1, input => do
    let (first, rest) ← item (skipSpace input)
    match skipSpace rest with
    | ']' :: rest => some ([first], rest)
    | ',' :: rest =>
      let (others, rest) ← readItemsTail item fuel rest
      some (first :: others, rest)
    | _ => none

def readItems {α : Type} (item : Parser α) : Parser (List α) := fun input =>
  match skipSpace input with
  | ']' :: rest => some ([], rest)
  | input => readItemsTail item input.length input

/-- A name, a colon, and what the name lets expect. -/
def readMember {ν α : Type} (name : Parser ν) (value : ν → Parser α) : Parser (ν × α) := fun input =>
  match skipSpace input with
  | '"' :: input => do
    let (name, rest) ← name input
    match skipSpace rest with
    | ':' :: rest =>
      let (value, rest) ← value name (skipSpace rest)
      some ((name, value), rest)
    | _ => none
  | _ => none

def readMembersTail {α : Type} (member : Parser α) : Nat → Parser (List α)
  | 0, _ => none
  | fuel + 1, input => do
    let (first, rest) ← member input
    match skipSpace rest with
    | '}' :: rest => some ([first], rest)
    | ',' :: rest =>
      let (others, rest) ← readMembersTail member fuel rest
      some (first :: others, rest)
    | _ => none

def readMembers {α : Type} (member : Parser α) : Parser (List α) := fun input =>
  match skipSpace input with
  | '}' :: rest => some ([], rest)
  | input => readMembersTail member input.length input

def readName : Parser String := fun input =>
  (readString input).map fun (characters, rest) => (String.ofList characters, rest)

/-- A value that nests at most `depth` arrays and objects. -/
def readValue : Nat → Parser Json
  | _, 'n' :: 'u' :: 'l' :: 'l' :: rest => some (.null, rest)
  | _, 't' :: 'r' :: 'u' :: 'e' :: rest => some (.bool true, rest)
  | _, 'f' :: 'a' :: 'l' :: 's' :: 'e' :: rest => some (.bool false, rest)
  | _, '"' :: input => (readName input).map fun (text, rest) => (.string text, rest)
  | depth + 1, '[' :: input => (readItems (readValue depth) input).map fun (items, rest) => (.array items, rest)
  | depth + 1, '{' :: input =>
    (readMembers (readMember readName fun _ => readValue depth) input).map fun (members, rest) =>
      (.object members, rest)
  | _, input => (readNumber input).map fun (literal, rest) => (.number literal, rest)

/-! ### Values that nobody looks at -/

/-- Passes over a string up to its closing quote. Surrogates may stand alone. -/
def skipString : Parser Unit
  | '"' :: rest => some ((), rest)
  | '\\' :: 'u' :: first :: second :: third :: fourth :: rest => do
    let _ ← hexUnit? first second third fourth
    skipString rest
  | '\\' :: letter :: rest => do
    let _ ← simpleEscape? letter
    skipString rest
  | character :: rest => if character.toNat < 0x20 then none else skipString rest
  | [] => none

/-- Passes over a number, however great. -/
def skipNumber : Parser Unit
  | '-' :: input => (literalParts input).map fun (_, rest) => ((), rest)
  | input => (literalParts input).map fun (_, rest) => ((), rest)

/-- Passes over a value that nests at most `depth` arrays and objects. -/
def skipValue : Nat → Parser Unit
  | _, 'n' :: 'u' :: 'l' :: 'l' :: rest => some ((), rest)
  | _, 't' :: 'r' :: 'u' :: 'e' :: rest => some ((), rest)
  | _, 'f' :: 'a' :: 'l' :: 's' :: 'e' :: rest => some ((), rest)
  | _, '"' :: input => skipString input
  | depth + 1, '[' :: input => (readItems (skipValue depth) input).map fun (_, rest) => ((), rest)
  | depth + 1, '{' :: input =>
    (readMembers (readMember skipString fun _ => skipValue depth) input).map fun (_, rest) =>
      ((), rest)
  | _, input => skipNumber input

/-- A member of a record: its value is read if the name is known and passed over if not. -/
def readField (known : List String) (depth : Nat) : Parser (String × Json) :=
  readMember readName fun name input =>
    if known.contains name then readValue depth input
    else (skipValue input.length input).map fun (_, rest) => (.null, rest)

/-- A value of which, if it is an object, only the members with known names count. What the others
hold is passed over and given as null. -/
def readRecord (known : List String) : Nat → Parser Json
  | depth + 1, '{' :: input =>
    (readMembers (readField known depth) input).map fun (members, rest) => (.object members, rest)
  | depth, input => readValue depth input

/-- How deep arrays and objects may nest in a document that is read. -/
def depthLimit : Nat := 127

/-- Reads one value that fills the whole text but for surrounding space. -/
def readWhole? (value : Parser Json) (text : String) : Option Json := do
  let (json, rest) ← value (skipSpace text.toList)
  if (skipSpace rest).isEmpty then some json else none

def parseNested? (depth : Nat) (text : String) : Option Json := readWhole? (readValue depth) text

def parse? (text : String) : Option Json := parseNested? depthLimit text

/-- Reads a document whose members with unknown names nobody looks at. -/
def parseRecord? (known : List String) (text : String) : Option Json :=
  readWhole? (readRecord known depthLimit) text

end Json

end RowPipeline
