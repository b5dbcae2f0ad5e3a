import RowPipeline.Json.Basic
import RowPipeline.Decimal.Text

/-!
Compact JSON text. Strings escape the quote, the backslash and the control characters below the
space; all other characters stand for themselves.
-/

namespace RowPipeline

namespace Json

def hexDigit (value : Nat) : Char := (Nat.toDigits 16 value).getD 0 '0'

def escape (character : Char) : List Char :=
  match character with
  | '"' => ['\\', '"']
  | '\\' => ['\\', '\\']
  | '\x08' => ['\\', 'b']
  | '\x09' => ['\\', 't']
  | '\x0a' => ['\\', 'n']
  | '\x0c' => ['\\', 'f']
  | '\x0d' => ['\\', 'r']
  | other =>
    if other.toNat < 0x20 then
      ['\\', 'u', '0', '0', hexDigit (other.toNat / 16), hexDigit (other.toNat % 16)]
    else [other]

def quoted (text : String) : List Char := '"' :: text.toList.flatMap escape ++ ['"']

def integerText (value : Int) : List Char :=
  if value < 0 then '-' :: Nat.toDigits 10 value.natAbs else Nat.toDigits 10 value.natAbs

def numberText : JsonNumber → List Char
  | .integer value => integerText value
  | .double value => NumberFormat.data.finiteText value

mutual

def render : Json → List Char
  | .null => ['n', 'u', 'l', 'l']
  | .bool true => ['t', 'r', 'u', 'e']
  | .bool false => ['f', 'a', 'l', 's', 'e']
  | .number value => numberText value
  | .string value => quoted value
  | .array items => '[' :: renderItems items ++ [']']
  | .object members => '{' :: renderMembers members ++ ['}']

def renderItems : List Json → List Char
  | [] => []
  | [item] => render item
  | item :: next :: rest => render item ++ ',' :: renderItems (next :: rest)

def renderMember : String × Json → List Char
  | (name, value) => quoted name ++ ':' :: render value

def renderMembers : List (String × Json) → List Char
  | [] => []
  | [member] => renderMember member
  | member :: next :: rest => renderMember member ++ ',' :: renderMembers (next :: rest)

end

def text (json : Json) : String := String.ofList json.render

end Json

end RowPipeline
