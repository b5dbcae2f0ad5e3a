/-!
Codes over bytes: Base64 with the alphabet that is safe in names, without padding, and the 32-bit
cyclic redundancy check with the reflected polynomial `0xedb88320`. Only the canonical Base64 of a
byte sequence is read: unused bits of the last digit have to be zero.
-/

namespace RowPipeline

namespace Base64

def alphabet : List Char :=
  "ABCDEFGHIJKLMNOPQRSTUVWXYZabcdefghijklmnopqrstuvwxyz0123456789-_".toList

def digit (value : Nat) : Char := alphabet.getD value 'A'

def value? (character : Char) : Option Nat := alphabet.idxOf? character

/-- Three bytes become four digits; one or two last bytes become two or three. -/
def encode : List UInt8 → List Char
  | [] => []
  | [first] => [digit (first.toNat / 4), digit (first.toNat % 4 * 16)]
  | [first, second] =>
    [digit (first.toNat / 4), digit (first.toNat % 4 * 16 + second.toNat / 16),
      digit (second.toNat % 16 * 4)]
  | first :: second :: third :: rest =>
    digit (first.toNat / 4) :: digit (first.toNat % 4 * 16 + second.toNat / 16) ::
      digit (second.toNat % 16 * 4 + third.toNat / 64) :: digit (third.toNat % 64) :: encode rest

def byte (value : Nat) : UInt8 := UInt8.ofNat value

def decode : List Char → Option (List UInt8)
  | [] => some []
  | [_] => none
  | [first, second] => do
    let first ← value? first
    let second ← value? second
    if second % 16 = 0 then some [byte (first * 4 + second / 16)] else none
  | [first, second, third] => do
    let first ← value? first
    let second ← value? second
    let third ← value? third
    if third % 4 = 0 then
      some [byte (first * 4 + second / 16), byte (second % 16 * 16 + third / 4)]
    else none
  | first :: second :: third :: fourth :: rest => do
    let first ← value? first
    let second ← value? second
    let third ← value? third
    let fourth ← value? fourth
    let bytes ← decode rest
    some (byte (first * 4 + second / 16) :: byte (second % 16 * 16 + third / 4) ::
      byte (third % 4 * 64 + fourth) :: bytes)

def encodeText (text : String) : String := String.ofList (encode text.toUTF8.toList)

def decodeText? (digits : String) : Option String := do
  let bytes ← decode digits.toList
  String.fromUTF8? ⟨bytes.toArray⟩

end Base64

namespace Checksum

def polynomial : UInt32 := 0xedb88320

/-- One bit leaves the register; the polynomial is added if it was set. -/
def shift (register : UInt32) : UInt32 :=
  if register &&& 1 == 1 then (register >>> 1) ^^^ polynomial else register >>> 1

def shifts : Nat → UInt32 → UInt32
  | 0, register => register
  | count + 1, register => shifts count (shift register)

def step (register : UInt32) (byte : UInt8) : UInt32 := shifts 8 (register ^^^ byte.toUInt32)

def ofBytes (bytes : List UInt8) : UInt32 := ~~~(bytes.foldl step 0xffffffff)

def ofText (text : String) : UInt32 := ofBytes text.toUTF8.toList

end Checksum

end RowPipeline
