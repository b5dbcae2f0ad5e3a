import RowPipeline.Double.Basic

/-!
JSON documents. An object keeps its members in the order they were written, so that a reader can
tell a repeated member from one that was given once.
-/

namespace RowPipeline

/-- A number is an integer or a finite double. -/
inductive JsonNumber where
  | integer (value : Int)
  | double (value : Double)
  deriving DecidableEq, Inhabited, Repr

inductive Json where
  | null
  | bool (value : Bool)
  | number (value : JsonNumber)
  | string (value : String)
  | array (items : List Json)
  | object (members : List (String × Json))
  deriving Inhabited, Repr, BEq

namespace Json

def integer (value : Int) : Json := .number (.integer value)

def nat (value : Nat) : Json := .integer value

def strings (texts : List String) : Json := .array (texts.map .string)

end Json

end RowPipeline
