import RowPipeline.Dictionary
import RowPipeline.Json.Basic

/-!
Records of named fields in JSON documents. A record is written as an object, in which fields may
come in any order and unknown members are passed over, or as an array of its first fields in order.
-/

namespace RowPipeline

namespace Json

def bool? : Json → Option Bool
  | .bool value => some value
  | _ => none

def string? : Json → Option String
  | .string value => some value
  | _ => none

/-- An integer from zero up to a bound; the same number written with a fraction is none. -/
def natBelow? (bound : Nat) : Json → Option Nat
  | .number (.integer value) => if 0 ≤ value && value < bound then some value.toNat else none
  | _ => none

/-- A count of things, which fits a word. -/
def count? : Json → Option Nat := natBelow? 0x10000000000000000

def arrayOf? {α : Type} (item? : Json → Option α) : Json → Option (List α)
  | .array items => items.mapM item?
  | _ => none

def dictionaryOf? {α : Type} (item? : Json → Option α) : Json → Option (Dictionary String α)
  | .object members =>
    (members.mapM fun (member : String × Json) => (item? member.2).map (member.1, ·)).map
      Dictionary.ofList
  | _ => none

/-- One of several things with names, given by its name or as the only member of an object, without
content. Inside a larger document an empty object is no content either. -/
def named? {α : Type} (nested : Bool) (all : List α) (name : α → String) : Json → Option α
  | .string text => all.find? fun thing => name thing == text
  | .object [(text, .null)] => all.find? fun thing => name thing == text
  | .object [(text, .object [])] =>
    if nested then all.find? fun thing => name thing == text else none
  | _ => none

mutual

def height : Json → Nat
  | .array items => itemsHeight items + 1
  | .object members => membersHeight members + 1
  | _ => 0

def itemsHeight : List Json → Nat
  | [] => 0
  | item :: rest => max (height item) (itemsHeight rest)

def memberHeight : String × Json → Nat
  | (_, json) => height json

def membersHeight : List (String × Json) → Nat
  | [] => 0
  | member :: rest => max (memberHeight member) (membersHeight rest)

end

mutual

/-- The same document with each object's members in order of their names; of several members with
one name the last is kept. -/
def canonical : Json → Json
  | .array items => .array (canonicalItems items)
  | .object members => .object (Dictionary.ofList (canonicalMembers members))
  | scalar => scalar

def canonicalItems : List Json → List Json
  | [] => []
  | item :: rest => canonical item :: canonicalItems rest

def canonicalMember : String × Json → String × Json
  | (name, json) => (name, canonical json)

def canonicalMembers : List (String × Json) → List (String × Json)
  | [] => []
  | member :: rest => canonicalMember member :: canonicalMembers rest

end

end Json

/-- The fields that a document gives a record, each at most once. -/
abbrev Record := List (String × Json)

namespace Record

def hasRepeats : List String → Bool
  | [] => false
  | name :: rest => rest.contains name || hasRepeats rest

/-- Finds the fields with the given names. A field that is given twice is an error, and so is an
array with more items than there are names. -/
def ofJson? (names : List String) : Json → Option Record
  | .object members =>
    let fields := members.filter fun (name, _) => names.contains name
    if hasRepeats (fields.map (·.1)) then none else some fields
  | .array items => if items.length ≤ names.length then some (names.zip items) else none
  | _ => none

variable {α : Type}

def required (record : Record) (name : String) (value? : Json → Option α) : Option α :=
  (record.lookup name).bind value?

/-- A field that may be left out; if it is there it has to be well formed. -/
def defaulted (record : Record) (name : String) (default : α) (value? : Json → Option α) :
    Option α :=
  match record.lookup name with
  | some json => value? json
  | none => some default

/-- A field that may be left out or null. -/
def optional (record : Record) (name : String) (value? : Json → Option α) : Option (Option α) :=
  match record.lookup name with
  | some .null => some none
  | some json => (value? json).map some
  | none => some none

/-- Splits a tagged record into its tag and what is left: the tag is the one member of that name, or
the first item of an array. -/
def tagged? (tag : String) : Json → Option (Json × Json)
  | .object members =>
    match members.filter (·.1 == tag) with
    | [(_, value)] => some (value, .object (members.filter (·.1 != tag)))
    | _ => none
  | .array (value :: rest) => some (value, .array rest)
  | _ => none

end Record

end RowPipeline
