import RowPipeline.Json.Parser
import RowPipeline.Json.Printer
import RowPipeline.Value.Basic

/-!
Cells as JSON and as text. Numbers that JSON cannot write become null; arrays and objects are shown
as JSON, all other cells as themselves.
-/

namespace RowPipeline

namespace Value

mutual

def toJson : Value → Json
  | .null => .null
  | .bool value => .bool value
  | .long value => .integer value.toInt
  | .double value => if value.isFinite then .number (.double value) else .null
  | .text value => .string value
  | .array items => .array (itemsToJson items)
  | .object fields => .object (fieldsToJson fields)

def itemsToJson : List Value → List Json
  | [] => []
  | item :: rest => toJson item :: itemsToJson rest

def fieldToJson : String × Value → String × Json
  | (name, value) => (name, toJson value)

def fieldsToJson : List (String × Value) → List (String × Json)
  | [] => []
  | field :: rest => fieldToJson field :: fieldsToJson rest

end

/-- An integer beyond 64 signed bits becomes a double. -/
def ofNumber : JsonNumber → Value
  | .integer value =>
    match Long.ofInt? value with
    | some exact => .long exact
    | none => .double (Double.ofInt value)
  | .double value => .double value

mutual

def ofJson : Json → Value
  | .null => .null
  | .bool value => .bool value
  | .number value => ofNumber value
  | .string value => .text value
  | .array items => .array (itemsOfJson items)
  | .object members => .object (Dictionary.ofList (fieldsOfJson members))

def itemsOfJson : List Json → List Value
  | [] => []
  | item :: rest => ofJson item :: itemsOfJson rest

def fieldOfJson : String × Json → String × Value
  | (name, json) => (name, ofJson json)

def fieldsOfJson : List (String × Json) → List (String × Value)
  | [] => []
  | member :: rest => fieldOfJson member :: fieldsOfJson rest

end

/-- The text shown for a cell, which is also what document ids are made of. -/
def display : Value → String
  | .null => "NULL"
  | .bool true => "true"
  | .bool false => "false"
  | .long value => String.ofList (Json.integerText value.toInt)
  | .double value => value.displayText
  | .text value => value
  | structured => structured.toJson.text

/-- A list of cells as the text of a JSON array. -/
def listText (values : List Value) : String := (Json.array (itemsToJson values)).text

end Value

end RowPipeline
